import LCCFileService.Library.Heap
import LCCFileService.Library.Delivery
import LCCFileService.Md5Tools
import LCCFileService.FileNet.LCFileNetTask

/-!
# The state of the net service

`Core` holds the task, operation and call objects, the task table, the disk, and the
dictionaries of `LCFileNetService` other than the callback caches.  `Notifier` holds the
callback caches and the observers, and everything that was ever told to them.  A `State`
is both.

The queues are the operations not yet started; any of them may start next.  A method of
the handler that is being called is a `HanderCall`; what its caller does when it returns
is a `Tail` among the pending ones.  `stopped` is no part of the code, and read by none of
it: it records the operations of which `cancel` or `pause` has returned.
-/

namespace LCCFileService

/-- A reference to a task object. -/
abbrev TaskRef : Type := Nat

/-- A reference to an operation. -/
abbrev OpRef : Type := Nat

/-- A reference to a call of a handler method. -/
abbrev CallRef : Type := Nat

/-- A handler, by its identity. -/
abbrev HanderRef : Type := Nat

/-- An observer, by its identity. -/
abbrev ObserverRef : Type := Nat

/-- An `NSError`. -/
structure NSError where
  domain : String := ""
  code : Int := 0
  description : Option String := none
  deriving DecidableEq, Inhabited

/-! ### Operations -/

/-- An `LCFileNetOperation`; `started` says that its queue has called `start`. -/
structure LCFileNetOperation where
  task : TaskRef
  hander : Option HanderRef
  executing : Bool := false
  finished : Bool := false
  cancelled : Bool := false
  started : Bool := false
  deriving DecidableEq, Inhabited

/-- The methods of `LCFileNetHander`. -/
inductive HanderMethod where
  | upload
  | download
  | resumUpload
  | resumDownload
  | cancel
  | pause
  deriving DecidableEq, Inhabited

/-- The methods that get a progress and a finish block. -/
def HanderMethod.transfers : HanderMethod → Bool
  | .upload | .download | .resumUpload | .resumDownload => true
  | .cancel | .pause => false

/-- The methods called to resume a transfer. -/
def HanderMethod.resumes : HanderMethod → Bool
  | .resumUpload | .resumDownload => true
  | _ => false

/-- A call of a handler method by an operation; `answered` says that its finish block has
been called. -/
structure HanderCall where
  op : OpRef
  method : HanderMethod
  answered : Bool := false
  deriving DecidableEq, Inhabited

/-- What the caller of a handler method does when the method returns: the rest of `main`,
of `cancel` or of `pause`, and then of `lc_cancelTask:`, or of `lc_pauseTask:` and the
loop over further task ids it may stand in. -/
inductive Tail where
  | main (o : OpRef)
  | cancel (o : OpRef)
  | pause (o : OpRef)
  | lcCancelTask (o : OpRef) (taskId : String) (cacheTask : TaskRef)
  | lcPauseTask (o : OpRef) (cacheTask : TaskRef) (taskIds : List String)
  deriving DecidableEq

/-! ### Notifications -/

/-- What observers are told about and callbacks are registered for. -/
inductive NoteKind where
  | progress
  | status
  | finish
  deriving DecidableEq

instance (p : NoteKind → Prop) [DecidablePred p] : Decidable (∀ kind, p kind) :=
  decidable_of_iff (p .progress ∧ p .status ∧ p .finish)
    ⟨fun h kind => by cases kind <;> simp [h], fun h => ⟨h _, h _, h _⟩⟩

/-- Who is told: the observer, an object of the `ProtocolFinder`, or a callback block. -/
inductive Recipient where
  | observer (o : ObserverRef)
  | found (o : ObserverRef)
  | callback (b : Block)
  deriving DecidableEq

/-- A notification about a task. -/
structure Note where
  kind : NoteKind
  recipient : Recipient
  task : TaskRef
  error : Option NSError := none
  deriving DecidableEq

/-- A mutable array of callback blocks, with the identity of the array. -/
structure CallbackArray where
  ref : Nat
  blocks : List Block
  deriving DecidableEq

/-- The callback of a kind a task carries. -/
def LCFileNetTask.callback (t : LCFileNetTask) : NoteKind → Option Block
  | .progress => t.progressCallback
  | .status => t.statusCallback
  | .finish => t.finishCallback

/-! ### The state -/

/-- The objects, the task table, the disk and the dictionaries of tasks and operations. -/
structure Core where
  tasks : Heap LCFileNetTask
  ops : Heap LCFileNetOperation
  calls : Heap HanderCall
  db : TaskTable
  disk : Disk String Bytes
  cache : Dictionary String TaskRef
  taskOperationDic : Dictionary String OpRef
  hander : Option HanderRef
  deallocated : List HanderRef
  pending : List Tail
  stopped : List OpRef

namespace Core

/-- Allocate a task. -/
def allocTask (t : LCFileNetTask) (c : Core) : Core := { c with tasks := c.tasks.alloc t }

/-- Set the properties of a task other than its `taskId`. -/
def setTask (r : TaskRef) (f : LCFileNetTask → LCFileNetTask) (c : Core) : Core :=
  { c with tasks := c.tasks.modify r (fun t => { f t with taskId := t.taskId }) }

/-- Set the status of a task. -/
def setStatus (r : TaskRef) (status : LCFileNetTaskStatus) : Core → Core :=
  setTask r (fun t => { t with status })

/-- Set properties of an operation. -/
def setOp (o : OpRef) (f : LCFileNetOperation → LCFileNetOperation) (c : Core) : Core :=
  { c with ops := c.ops.modify o f }

/-- Record that `cancel` or `pause` of an operation returns. -/
def recordStop (o : OpRef) (c : Core) : Core := { c with stopped := o :: c.stopped }

/-- Apply an operation of the task table. -/
def setDb (f : TaskTable → TaskTable) (c : Core) : Core := { c with db := f c.db }

/-- Let the caller of a handler method wait for its return. -/
def await (t : Tail) (c : Core) : Core := { c with pending := c.pending ++ [t] }

/-- The `i`-th pending tail waits no more. -/
def dropTail (i : Nat) (c : Core) : Core := { c with pending := c.pending.eraseIdx i }

/-- The operation calls a handler method. -/
def call (o : OpRef) (method : HanderMethod) (c : Core) : Core :=
  { c with calls := c.calls.alloc { op := o, method } }

/-- The finish block of a call has been called. -/
def answer (r : CallRef) (c : Core) : Core :=
  { c with calls := c.calls.modify r (fun call => { call with answered := true }) }

/-- The task of an operation. -/
def taskOf (c : Core) (o : OpRef) : TaskRef := (c.ops.cell o).task

/-- The task id of the task of an operation. -/
def taskIdOf (c : Core) (o : OpRef) : Option String := (c.tasks.cell (c.taskOf o)).taskId

/-- The weak reference `hander` of an operation. -/
def handerOf (c : Core) (o : OpRef) : Option HanderRef :=
  (c.ops.cell o).hander.filter (fun h => h ∉ c.deallocated)

/-- What is kept when the properties of a task are set is kept for all tasks. -/
theorem map_setTask {β : Type} (g : LCFileNetTask → β) {r : TaskRef}
    {f : LCFileNetTask → LCFileNetTask} {c : Core}
    (hf : g { f (c.tasks.cell r) with taskId := (c.tasks.cell r).taskId } = g (c.tasks.cell r))
    (r' : TaskRef) :
  g ((c.setTask r f).tasks.cell r') = g (c.tasks.cell r')
  := by
  have hg := Heap.map_cell_modify g (h := c.tasks)
    (f := fun t => { f t with taskId := t.taskId }) hf
  apply hg

/-- Setting the properties of a task keeps all task ids. -/
@[simp]
theorem taskId_setTask (r : TaskRef) (f : LCFileNetTask → LCFileNetTask) (c : Core)
    (r' : TaskRef) :
  ((c.setTask r f).tasks.cell r').taskId = (c.tasks.cell r').taskId
  := map_setTask LCFileNetTask.taskId rfl r'

theorem cell_setStatus (r : TaskRef) (status : LCFileNetTaskStatus) (c : Core) (r' : TaskRef) :
  (c.setStatus r status).tasks.cell r'
    = if r' = r then { c.tasks.cell r with status } else c.tasks.cell r'
  := by
  rw [setStatus, setTask, Heap.cell_modify]

/-- Setting the status a task has changes nothing. -/
theorem setStatus_eq_self {r : TaskRef} {status : LCFileNetTaskStatus} {c : Core}
    (h : (c.tasks.cell r).status = status) :
  c.setStatus r status = c
  := by
  have htasks : c.tasks.modify r (fun t => { t with status }) = c.tasks := by
    apply Heap.modify_eq_self
    rw [← h]
  rw [setStatus, setTask]
  exact congrArg (fun tasks => { c with tasks }) htasks

/-- What is set of an operation is not its task. -/
theorem taskOf_setOp {o : OpRef} {f : LCFileNetOperation → LCFileNetOperation} {c : Core}
    (hf : (f (c.ops.cell o)).task = (c.ops.cell o).task) (o' : OpRef) :
  (c.setOp o f).taskOf o' = c.taskOf o'
  := by
  have htask := Heap.map_cell_modify LCFileNetOperation.task (h := c.ops) hf
  apply htask

/-- What is set of an operation is not its handler. -/
theorem handerOf_setOp {o : OpRef} {f : LCFileNetOperation → LCFileNetOperation} {c : Core}
    (hf : (f (c.ops.cell o)).hander = (c.ops.cell o).hander) (o' : OpRef) :
  (c.setOp o f).handerOf o' = c.handerOf o'
  := by
  have hhander := Heap.map_cell_modify LCFileNetOperation.hander (h := c.ops) hf o'
  rw [handerOf, handerOf, setOp, hhander]

end Core

/-- The callback caches and the observers, with the notifications told so far, the trace of
the finish callbacks, and whether an exception was raised. -/
structure Notifier where
  callbackCache : NoteKind → Dictionary String CallbackArray
  arrays : Nat
  enumerated : List Nat
  observer : Option ObserverRef
  finder : List ObserverRef
  notes : List Note
  trace : List (Delivery.Entry String Block)
  raised : Bool

/-- The state of the net service. -/
structure State extends Core, Notifier

namespace State

/-- The state when the process starts. -/
def initial (db : TaskTable) (disk : Disk String Bytes) : State where
  tasks := Heap.empty
  ops := Heap.empty
  calls := Heap.empty
  db := db
  disk := disk
  cache := ∅
  taskOperationDic := ∅
  hander := none
  deallocated := []
  pending := []
  stopped := []
  callbackCache := fun _ => ∅
  arrays := 0
  enumerated := []
  observer := none
  finder := []
  notes := []
  trace := []
  raised := false

/-- The `progressCallbackCache` -/
abbrev progressCallbackCache (s : State) : Dictionary String CallbackArray :=
  s.callbackCache .progress

/-- The `statusCallbackCache` -/
abbrev statusCallbackCache (s : State) : Dictionary String CallbackArray :=
  s.callbackCache .status

/-- The `finishCallbackCache` -/
abbrev finishCallbackCache (s : State) : Dictionary String CallbackArray :=
  s.callbackCache .finish

/-- Change the core of the state. -/
def mapCore (f : Core → Core) (s : State) : State := { s with toCore := f s.toCore }

@[simp]
theorem toCore_mapCore (f : Core → Core) (s : State) :
  (s.mapCore f).toCore = f s.toCore
  := rfl

@[simp]
theorem toNotifier_mapCore (f : Core → Core) (s : State) :
  (s.mapCore f).toNotifier = s.toNotifier
  := rfl

/-- Raise an exception. -/
def raise (s : State) : State := { s with raised := true }

/-- Enter an entry into the trace of the finish callbacks. -/
def enter (e : Delivery.Entry String Block) (s : State) : State :=
  { s with trace := s.trace ++ [e] }

end State

/-- What the service takes from outside: the MD5 function, and what is done by the callee
whenever somebody is told a note. -/
structure Env where
  md5 : Bytes → String
  react : Note → State → State

/-- Observers and callbacks that do not call back into the service. -/
def quiet (md5 : Bytes → String) : Env where
  md5 := md5
  react := fun _ s => s

end LCCFileService
