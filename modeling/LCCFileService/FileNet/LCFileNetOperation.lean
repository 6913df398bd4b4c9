import LCCFileService.FileNet.Notify

/-!
# Operations

The methods of `LCFileNetOperation` and the progress and finish blocks it gives to the
handler.  A method of the operation that calls a handler method ends with the call; what
it does when the call returns is the method's tail.
-/

namespace LCCFileService

namespace LCFileNetOperation

open LCFileNetService

variable (E : Env)

/-! ### Notifying the observer -/

/-- `p_notifyStart` -/
def pNotifyStart (o : OpRef) (s : State) : State := lcNetOperationStart E (s.taskOf o) s

/-- `p_notifyProgressUpdateWithFinishedSize:totalSize:`, which uses neither size. -/
def pNotifyProgressUpdate (o : OpRef) (s : State) : State :=
  lcNetOperationProgressUpdate E (s.taskOf o) s

/-- `p_notifyStatusUpadteWithNewStatus:` -/
def pNotifyStatusUpadte (o : OpRef) (status : LCFileNetTaskStatus) (s : State) : State :=
  lcNetOperationStatusUpadte E (s.taskOf o) (s.mapCore (·.setStatus (s.taskOf o) status))

/-- `p_notifyFinishWithError:` -/
def pNotifyFinish (o : OpRef) (error : Option NSError) (s : State) : State :=
  lcNetOperationStatusFinish E (s.taskOf o) error s

/-! ### Starting and resuming a transfer -/

/-- `p_finishOperatioin` -/
def pFinishOperatioin (o : OpRef) : Core → Core :=
  Core.setOp o (fun op => { op with executing := false, finished := true })

/-- `p_startUpload` -/
def pStartUpload (o : OpRef) (c : Core) : Core :=
  if (c.handerOf o).isSome then c.call o .upload else pFinishOperatioin o c

/-- `p_startDownload` -/
def pStartDownload (o : OpRef) (c : Core) : Core :=
  if (c.handerOf o).isSome then c.call o .download else pFinishOperatioin o c

/-- `p_resumUpload` -/
def pResumUpload (o : OpRef) (c : Core) : Core :=
  if (c.handerOf o).isSome then c.call o .resumUpload else c

/-- `p_resumDownLoad` -/
def pResumDownLoad (o : OpRef) (c : Core) : Core :=
  if (c.handerOf o).isSome then c.call o .resumDownload else c

/-- The statuses from which `main` resumes. -/
def resumes : LCFileNetTaskStatus → Bool
  | .pause | .failed | .interrupt => true
  | _ => false

/-- `main` up to its last line. -/
def mainTransfer (o : OpRef) (c : Core) : Core :=
  let task := c.tasks.cell (c.taskOf o)
  match task.type with
  | .upload => if resumes task.status then pResumUpload o c else pStartUpload o c
  | .download => if resumes task.status then pResumDownLoad o c else pStartDownload o c
  | .unknown => c

/-- `main`, whose last line waits for the handler if it was called. -/
def main (o : OpRef) (s : State) : State :=
  let c := mainTransfer o s.toCore
  if s.calls.next < c.calls.next then s.mapCore (fun _ => c.await (.main o))
  else pNotifyStart E o (s.mapCore (fun _ => c))

/-- `start` -/
def start (o : OpRef) (s : State) : State :=
  if (s.ops.cell o).cancelled then
    s.mapCore (·.setOp o (fun op => { op with finished := true }))
  else main E o (s.mapCore (·.setOp o (fun op => { op with executing := true })))

/-! ### Cancelling and pausing -/

/-- The test `!self.isFinished || !self.isCancelled` of `cancel` and `pause`. -/
def stoppable (o : OpRef) (c : Core) : Bool :=
  !(c.ops.cell o).finished || !(c.ops.cell o).cancelled

/-- `cancel` or `pause` calls the handler. -/
def callsHander (o : OpRef) (c : Core) : Bool := stoppable o c && (c.handerOf o).isSome

/-- `[super cancel]`, which has no effect on an operation that has finished, and
`p_finishOperatioin` -/
def superCancel (o : OpRef) (c : Core) : Core :=
  c.setOp o (fun op => { op with cancelled := op.cancelled || !op.finished })
    |> pFinishOperatioin o
    |>.recordStop o

/-- The rest of `cancel` or `pause`, with the status it sets, after the handler was called. -/
def stopTail (status : LCFileNetTaskStatus) (o : OpRef) (s : State) : State :=
  (pNotifyStatusUpadte E o status s).mapCore (superCancel o)

/-- `cancel` or `pause`, with the handler method it calls and the status it sets.  The caller
goes on with `rest`, but after a call of the handler with its tail `t`. -/
def stop (method : HanderMethod) (status : LCFileNetTaskStatus) (o : OpRef) (t : Tail)
    (rest : State → State) (s : State) : State :=
  if callsHander o s.toCore then s.mapCore (fun c => (c.call o method).await t)
  else if stoppable o s.toCore then rest (stopTail E status o s)
  else rest (s.mapCore (superCancel o))

/-- `cancel` -/
def cancel : OpRef → Tail → (State → State) → State → State := stop E .cancel .canceled

/-- `pause` -/
def pause : OpRef → Tail → (State → State) → State → State := stop E .pause .pause

/-! ### The blocks given to the handler -/

/-- The progress block of every handler method that takes one. -/
def progressBlock (o : OpRef) (s : State) : State :=
  (pNotifyProgressUpdate E o s).mapCore
    (fun c => if (c.ops.cell o).cancelled then pFinishOperatioin o c else c)

/-- The transfer has ended: its task id is settled, unless another operation is stored for it. -/
def enterEnd (o : OpRef) (s : State) : State :=
  match (s.tasks.cell (s.taskOf o)).taskId with
  | some taskId =>
      if s.taskOperationDic.lookup taskId = some o then s.enter (.settle taskId)
      else s.enter (.settleOnly taskId none)
  | none => s

/-- What the finish blocks do when the transfer has ended. -/
def ended (o : OpRef) (error : Option NSError) (s : State) : State :=
  s |> enterEnd o
    |> pNotifyStatusUpadte E o (if error.isSome then .failed else .finish)
    |> pNotifyFinish E o error
    |>.mapCore (pFinishOperatioin o)

/-- The finish block given to a handler method. -/
def finishBlock (method : HanderMethod) (o : OpRef) (error : Option NSError) (s : State) :
    State :=
  match method with
  | .upload | .download => ended E o error s
  | .resumUpload => if error.isSome then s.mapCore (pStartUpload o) else ended E o none s
  | .resumDownload => if error.isSome then s.mapCore (pStartDownload o) else ended E o none s
  | .cancel | .pause => s

end LCFileNetOperation

end LCCFileService
