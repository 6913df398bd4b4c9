import LCCFileService.AWSS3.TransferUtility

/-!
# The S3 handler

The methods of `LCS3Hander`, and the steps of the system of the service, the handler and
S3.  What the handler has asked for and what will go on with a block is a `Continuation`
among the waiting ones; they may go on in any order.  A request is a call of a handler
method, by an operation of the service or by somebody else; `answers` are the calls of the
finish blocks so far.
-/

namespace LCCFileService

/-! ### The state -/

/-- A call of a method of the handler, and the call of the service it is, if it is one. -/
structure Request where
  method : HanderMethod
  task : TaskRef
  call : Option CallRef := none
  deriving DecidableEq, Inhabited

/-- What goes on for a request when the utility, S3, or a dispatch queue is ready. -/
inductive Continuation where
  /-- `replicateObject:` for `lc_copyFile:from:callback:`, to the given key. -/
  | replicate (q : RequestRef) (source : LCFileNetTaskRow) (key : Option String)
  /-- `getPreSignedURL:` after a copy. -/
  | copyURL (q : RequestRef) (source : LCFileNetTaskRow)
  /-- The block copying a file. -/
  | copyItem (q : RequestRef) (source : LCFileNetTaskRow)
  /-- The block on the main queue after a file was copied. -/
  | copied (q : RequestRef) (source : LCFileNetTaskRow) (error : Option NSError)
  /-- The start of a transfer. -/
  | start (q : RequestRef) (kind : TransferKind) (key path : String)
  /-- The block that gets the started transfer. -/
  | started (q : RequestRef) (transfer : TransferRef)
  /-- `getPreSignedURL:` after a transfer. -/
  | url (q : RequestRef)
  deriving DecidableEq

/-- The request a continuation belongs to. -/
def Continuation.request : Continuation → RequestRef
  | .replicate q _ _ | .copyURL q _ | .copyItem q _ | .copied q _ _ | .start q _ _ _
  | .started q _ | .url q => q

/-- The continuation is to call the finish block of its request, at once or later. -/
def Continuation.answers : Continuation → Bool
  | .started _ _ => false
  | _ => true

/-- The transfers of the utility with the messages sent to them, the handler, whether copying a
file raised an exception, and the bucket. -/
structure Hander where
  transfers : Heap AWSS3TransferUtilityTask
  sent : List (TransferRef × TransferMessage)
  taskDic : Dictionary String TransferRef
  requests : Heap Request
  waiting : List Continuation
  answers : List (RequestRef × Option NSError)
  thrown : Bool
  bucket : Disk String Bytes

/-- The state of the service, the handler and S3. -/
structure System extends State, Hander

namespace System

/-- The system when the process starts: the utility has the given transfers, without blocks. -/
def initial (db : TaskTable) (disk : Disk String Bytes) (transfers : Heap AWSS3TransferUtilityTask)
    (bucket : Disk String Bytes) : System where
  toState := State.initial db disk
  transfers :=
    ⟨transfers.next, fun r => { transfers.cell r with completionHandler := none }⟩
  sent := []
  taskDic := ∅
  requests := Heap.empty
  waiting := []
  answers := []
  thrown := false
  bucket := bucket

/-- Change the state of the service. -/
def mapState (f : State → State) (s : System) : System := { s with toState := f s.toState }

/-- Change the state of the handler. -/
def mapHander (f : Hander → Hander) (s : System) : System := { s with toHander := f s.toHander }

@[simp]
theorem toState_mapState (f : State → State) (s : System) :
  (s.mapState f).toState = f s.toState
  := rfl

@[simp]
theorem toHander_mapState (f : State → State) (s : System) :
  (s.mapState f).toHander = s.toHander
  := rfl

@[simp]
theorem toState_mapHander (f : Hander → Hander) (s : System) :
  (s.mapHander f).toState = s.toState
  := rfl

@[simp]
theorem toHander_mapHander (f : Hander → Hander) (s : System) :
  (s.mapHander f).toHander = f s.toHander
  := rfl

/-- The task of a request. -/
def taskOfRequest (q : RequestRef) (s : System) : LCFileNetTask :=
  s.tasks.cell (s.requests.cell q).task

/-- Set the properties of the task of a request. -/
def setTaskOf (q : RequestRef) (f : LCFileNetTask → LCFileNetTask) (s : System) : System :=
  s.mapState (·.mapCore (·.setTask (s.requests.cell q).task f))

/-- Change the disk. -/
def mapDisk (f : Disk String Bytes → Disk String Bytes) (s : System) : System :=
  s.mapState (·.mapCore (fun c => { c with disk := f c.disk }))

/-- Change the bucket. -/
def mapBucket (f : Disk String Bytes → Disk String Bytes) (s : System) : System :=
  s.mapHander (fun h => { h with bucket := f h.bucket })

/-- Enter a request, at the reference `s.requests.next`. -/
def addRequest (r : Request) (s : System) : System :=
  s.mapHander (fun h => { h with requests := h.requests.alloc r })

/-- Let something go on later. -/
def wait (c : Continuation) (s : System) : System :=
  s.mapHander (fun h => { h with waiting := h.waiting ++ [c] })

/-- The `i`-th waiting continuation waits no more. -/
def dropWaiting (i : Nat) (s : System) : System :=
  s.mapHander (fun h => { h with waiting := h.waiting.eraseIdx i })

/-- A transfer changes. -/
def setTransfer (r : TransferRef) (f : AWSS3TransferUtilityTask → AWSS3TransferUtilityTask)
    (s : System) : System :=
  s.mapHander (fun h => { h with transfers := h.transfers.modify r f })

/-- Send a message to a transfer, which changes as given. -/
def send (r : TransferRef) (message : TransferMessage)
    (f : AWSS3TransferUtilityTask → AWSS3TransferUtilityTask) (s : System) : System :=
  s.setTransfer r f |>.mapHander (fun h => { h with sent := h.sent ++ [(r, message)] })

theorem mapState_congr {f g : State → State} {s : System} (h : f s.toState = g s.toState) :
  s.mapState f = s.mapState g
  := congrArg (fun state => { s with toState := state }) h

theorem mapState_eq_self {f : State → State} {s : System} (h : f s.toState = s.toState) :
  s.mapState f = s
  := congrArg (fun state => { s with toState := state }) h

theorem cell_setTransfer (r : TransferRef)
    (f : AWSS3TransferUtilityTask → AWSS3TransferUtilityTask) (s : System) (r' : TransferRef) :
  (s.setTransfer r f).transfers.cell r'
    = if r' = r then f (s.transfers.cell r) else s.transfers.cell r'
  := Heap.cell_modify r f s.transfers r'

theorem cell_send (r : TransferRef) (message : TransferMessage)
    (f : AWSS3TransferUtilityTask → AWSS3TransferUtilityTask) (s : System) (r' : TransferRef) :
  (s.send r message f).transfers.cell r'
    = if r' = r then f (s.transfers.cell r) else s.transfers.cell r'
  := Heap.cell_modify r f s.transfers r'

end System

namespace LCS3Hander

variable (E : Env)

/-! ### Calling the blocks of a request -/

/-- `progressCallback` -/
def progressCallback (q : RequestRef) (s : System) : System :=
  match (s.requests.cell q).call with
  | some r => s.mapState (fun s => step E s (.progress r))
  | none => s

/-- `finishCallback` -/
def finishCallback (q : RequestRef) (error : Option NSError) (s : System) : System :=
  let s := s.mapHander (fun h => { h with answers := h.answers ++ [(q, error)] })
  match (s.requests.cell q).call with
  | some r => s.mapState (fun s => step E s (.finish r error))
  | none => s

/-! ### Starting transfers -/

/-- The error of an upload that cannot be started. -/
def uploadError : NSError where
  domain := "s3.hander"
  code := 999
  description := some "fileKey or filePath is nil.or file is not exist"

/-- The error of a download that cannot be started. -/
def downloadError : NSError where
  domain := "s3.hander"
  code := 999
  description := some "fileKey or filePath is nil."

/-- `p_startUpload:progress:finish:` -/
def pStartUpload (q : RequestRef) (s : System) : System :=
  let task := s.taskOfRequest q
  match task.fileKey, task.filePath with
  | some fileKey, some filePath =>
      if s.disk.has filePath then
        -- files of more than 10 MB are uploaded in parts
        s.wait (.start q
          (if task.totalSize > 10 * 1000 * 1000 then .multiPartUpload else .upload)
          fileKey filePath)
      else finishCallback E q uploadError s
  | _, _ => finishCallback E q uploadError s

/-- `p_startDownload:progress:finish:` -/
def pStartDownload (q : RequestRef) (s : System) : System :=
  let task := s.taskOfRequest q
  match task.fileKey, task.filePath with
  | some fileKey, some filePath => s.wait (.start q .download fileKey filePath)
  | _, _ => finishCallback E q downloadError s

/-! ### Copying -/

/-- The callback given to `p_copyTask:from:callback:` by the upload and the download method. -/
def copyCallback (q : RequestRef) (error : Option NSError) (s : System) : System :=
  if error.isSome then
    if (s.requests.cell q).method = .upload then pStartUpload E q s else pStartDownload E q s
  else finishCallback E q none (progressCallback E q s)

/-- The error of a copy of a file that is not there. -/
def fileError : NSError where
  domain := "s3.hander"
  code := 999
  description := some "file is not exist"

/-- The error of a copy for a task of unknown type. -/
def typeError : NSError where
  domain := "s3.header"
  code := 999
  description := some "unknown task type"

/-- `p_copyTask:from:callback:` -/
def pCopyTask (q : RequestRef) (sourceTask : LCFileNetTaskRow) (s : System) : System :=
  let targetTask := s.taskOfRequest q
  match targetTask.type with
  | .upload => s.wait (.replicate q sourceTask targetTask.fileKey)
  | .download =>
      if sourceTask.filePath.elim false s.disk.has then s.wait (.copyItem q sourceTask)
      else copyCallback E q fileError s
  | .unknown => copyCallback E q typeError s

/-- The first finished task of a result. -/
def finished (tasks : List LCFileNetTaskRow) : Option LCFileNetTaskRow :=
  tasks.find? (fun obj => obj.status = .finish)

/-- `lc_fileNetHanderUpload:progress:finish:` -/
def lcFileNetHanderUpload (q : RequestRef) (s : System) : System :=
  match finished (LCFileTaskDB.lcGetTaskByMd5 (s.taskOfRequest q).md5 s.db) with
  | some oldTask => pCopyTask E q oldTask s
  | none => pStartUpload E q s

/-- `lc_fileNetHanderDownload:progress:finish:` -/
def lcFileNetHanderDownload (q : RequestRef) (s : System) : System :=
  match finished (LCFileTaskDB.lcGetTaskByFileKey (s.taskOfRequest q).fileKey s.db) with
  | some oldTask => pCopyTask E q oldTask s
  | none => pStartDownload E q s

/-! ### The end of a transfer -/

/-- Set the `md5` of the task to that of its file. -/
def setMd5 (q : RequestRef) (s : System) : System :=
  s.setTaskOf q (fun task => { task with
    md5 := task.filePath.elim "ERROR GETTING FILE MD5"
      (fun path => Md5Tools.fileMD5WithPath E.md5 path s.disk) })

/-- Remove the transfer of the task from `taskDic`, which raises an exception for the key nil. -/
def removeObject (q : RequestRef) (s : System) : System :=
  match (s.taskOfRequest q).taskId with
  | some taskId => s.mapHander (fun h => { h with taskDic := h.taskDic.erase taskId })
  | none => s.mapState State.raise

/-- Put a transfer into `taskDic` for the task, which raises an exception for the key nil. -/
def setObject (q : RequestRef) (transfer : TransferRef) (s : System) : System :=
  match (s.taskOfRequest q).taskId with
  | some taskId => s.mapHander (fun h => { h with taskDic := h.taskDic.insert taskId transfer })
  | none => s.mapState State.raise

/-- What the completion handler of an upload or a download does with the finish block. -/
def answerCompletion (kind : TransferKind) (q : RequestRef) (error : Option NSError)
    (s : System) : System :=
  if error.isSome then finishCallback E q error s
  else if kind = .download then finishCallback E q none (setMd5 E q s)
  else s.wait (.url q)

/-- The completion handler of an upload or a download runs. -/
def runCompletionHandler (kind : TransferKind) (handler : CompletionHandler)
    (error : Option NSError) (s : System) : System :=
  let s := answerCompletion E kind handler.request error s
  if handler.removes then removeObject handler.request s else s

/-- `complete` -/
def complete (transfer : TransferRef) (s : System) : System :=
  let t := s.transfers.cell transfer
  match t.completionHandler with
  | some handler =>
      (runCompletionHandler E t.kind handler t.error s).setTransfer transfer
        (fun t => { t with completionHandler := none })
  | none => s

/-- `setCompletionHandler:` -/
def setCompletionHandler (transfer : TransferRef) (handler : CompletionHandler) (s : System) :
    System :=
  let s := s.send transfer .setCompletionHandler
    (fun t => { t with completionHandler := some handler })
  if (s.transfers.cell transfer).ended then complete E transfer s else s

/-! ### Resuming, cancelling and pausing -/

/-- The transfer in `taskDic` for the task of a request. -/
def awsTask (q : RequestRef) (s : System) : Option TransferRef :=
  (s.taskOfRequest q).taskId.bind s.taskDic.lookup

/-- The body of the two methods that resume a transfer, of the kinds the method takes; a
transfer of another kind is only asserted not to be. -/
def resumTask (takes : TransferKind → Bool) (q : RequestRef) (s : System) : System :=
  match awsTask q s with
  | some transfer =>
      if takes (s.transfers.cell transfer).kind then
        (setCompletionHandler E transfer ⟨q, false⟩ s).send transfer .resume
          AWSS3TransferUtilityTask.resume
      else s
  | none => finishCallback E q (some {}) s

/-- `lc_fileNetHanderResumUploadTask:progress:finish:` -/
def lcFileNetHanderResumUploadTask : RequestRef → System → System :=
  resumTask E (fun kind => kind = .upload || kind = .multiPartUpload)

/-- `lc_fileNetHanderResumDownloadTask:progress:finish:` -/
def lcFileNetHanderResumDownloadTask : RequestRef → System → System :=
  resumTask E (fun kind => kind = .download)

/-- `lc_fileNetHanderCancelTask:` -/
def lcFileNetHanderCancelTask (q : RequestRef) (s : System) : System :=
  match awsTask q s with
  | some transfer => s.send transfer .cancel AWSS3TransferUtilityTask.cancel
  | none => s

/-- `lc_fileNetHanderPauseTask:` -/
def lcFileNetHanderPauseTask (q : RequestRef) (s : System) : System :=
  match awsTask q s with
  | some transfer => s.send transfer .suspend AWSS3TransferUtilityTask.suspend
  | none => s

/-- The method of a request is called. -/
def callMethod (q : RequestRef) (s : System) : System :=
  match (s.requests.cell q).method with
  | .upload => lcFileNetHanderUpload E q s
  | .download => lcFileNetHanderDownload E q s
  | .resumUpload => lcFileNetHanderResumUploadTask E q s
  | .resumDownload => lcFileNetHanderResumDownloadTask E q s
  | .cancel => lcFileNetHanderCancelTask q s
  | .pause => lcFileNetHanderPauseTask q s

/-- Somebody makes a request. -/
def request (r : Request) (s : System) : System :=
  callMethod E s.requests.next (s.addRequest r)

/-- One of the loops of `loadHistoryAWSTask`. -/
def loadTransfers (transfers : List TransferRef) (s : System) : System :=
  transfers.foldl
    (fun s obj =>
      (s.send obj .suspend AWSS3TransferUtilityTask.suspend).mapHander
        (fun h => { h with taskDic := h.taskDic.insert (h.transfers.cell obj).key obj }))
    s

/-- `loadHistoryAWSTask`, where the utility returns the given transfers. -/
def loadHistoryAWSTask (uploadTask multiPartUploadTask downloadTask : List TransferRef)
    (s : System) : System :=
  s |> loadTransfers uploadTask
    |> loadTransfers multiPartUploadTask
    |> loadTransfers downloadTask

/-! ### Going on -/

/-- The continuation may go on with the error: S3 copies objects and files are copied only if
they are there, and no file is overwritten; copying to the path nil has no error. -/
def mayGoOn (error : Option NSError) (s : System) : Continuation → Bool
  | .replicate _ source key =>
      error.isSome || key.isSome && source.fileKey.elim false s.bucket.has
  | .copyItem q source =>
      match (s.taskOfRequest q).filePath with
      | some path =>
          error.isSome || source.filePath.elim false s.disk.has && !s.disk.has path
      | none => error.isNone
  | _ => true

/-- S3 copies an object. -/
def replicateObject (sourceKey key : Option String) (s : System) : System :=
  match sourceKey, key with
  | some sourceKey, some key => s.mapBucket (Disk.copy sourceKey key)
  | _, _ => s

/-- `copyItemAtPath:toPath:error:` raises an exception, for the path nil. -/
def throwException (s : System) : System := s.mapHander (fun h => { h with thrown := true })

/-- `copyItemAtPath:toPath:error:`, when it succeeds. -/
def copyItem (sourcePath : Option String) (path : String) (s : System) : System :=
  match sourcePath with
  | some sourcePath => s.mapDisk (Disk.copy sourcePath path)
  | none => s

/-- The block copying a file, and how it goes on with the error it gets. -/
def copyItemAtPath (q : RequestRef) (source : LCFileNetTaskRow) (error : Option NSError)
    (s : System) : System :=
  match (s.taskOfRequest q).filePath, error with
  | none, _ => throwException s
  | some _, some error => s.wait (.copied q source error)
  | some path, none => (copyItem source.filePath path s).wait (.copied q source none)

/-- What was waiting goes on, with the URL or the error it gets. -/
def goOn (url : Option String) (error : Option NSError) : Continuation → System → System
  | .replicate q source key, s =>
      match error with
      | some error => copyCallback E q error s
      | none => (replicateObject source.fileKey key s).wait (.copyURL q source)
  | .copyURL q source, s =>
      s.setTaskOf q (fun task => { task with
          url
          finishedSize := source.finishedSize
          totalSize := source.totalSize })
        |> copyCallback E q error
  | .copyItem q source, s => copyItemAtPath q source error s
  | .copied q source copyError, s =>
      (if copyError.isSome then s else setMd5 E q s)
        |>.setTaskOf q (fun task => { task with
          finishedSize := source.finishedSize
          totalSize := source.totalSize })
        |> copyCallback E q copyError
  | .start q kind key path, s =>
      match error with
      | some error => finishCallback E q error s
      | none =>
          s.mapHander (fun h => { h with
              transfers := h.transfers.alloc
                { kind, key, path, completionHandler := some ⟨q, true⟩ } })
            |>.wait (.started q s.transfers.next)
  | .started q transfer, s => setObject q transfer s
  | .url q, s => finishCallback E q error (s.setTaskOf q (fun task => { task with url }))

/-- The transfer may end with the error: it succeeds only if there is something to transfer. -/
def mayEnd (transfer : TransferRef) (error : Option NSError) (s : System) : Bool :=
  let t := s.transfers.cell transfer
  transfer < s.transfers.next && t.live &&
    (error.isSome || match t.kind with
      | .download => s.bucket.has t.key
      | _ => s.disk.has t.path)

/-- What a transfer without error has transferred; a download leaves a file that is there. -/
def transferred (t : AWSS3TransferUtilityTask) (s : System) : System :=
  match t.kind with
  | .download =>
      if s.disk.has t.path then s
      else s.mapDisk (fun disk => Function.update disk t.path (s.bucket t.key))
  | _ => s.mapBucket (fun bucket => Function.update bucket t.key (s.disk t.path))

/-- A transfer ends; the body of an answer with an error was moved before, if there was one. -/
def endTransfer (transfer : TransferRef) (error : Option NSError) (s : System) : System :=
  (if error.isSome then s else transferred (s.transfers.cell transfer) s)
    |>.setTransfer transfer (AWSS3TransferUtilityTask.finish error)
    |> complete E transfer

/-- S3 may answer the download with an error whose body is moved to the path, as it is free. -/
def mayMove (transfer : TransferRef) (s : System) : Bool :=
  let t := s.transfers.cell transfer
  transfer < s.transfers.next && t.live && t.kind = .download && !s.disk.has t.path

/-- `moveItemAtURL:toURL:error:`, which moves the body whatever the status of the answer is. -/
def moveItem (transfer : TransferRef) (body : Bytes) (s : System) : System :=
  s.mapDisk (fun disk => Function.update disk (s.transfers.cell transfer).path (some body))

/-- The progress block of a transfer. -/
def progressBlock (transfer : TransferRef) (completed total : Int) (s : System) : System :=
  match (s.transfers.cell transfer).completionHandler with
  | some handler =>
      s.setTaskOf handler.request (fun task => { task with
          finishedSize := max completed task.finishedSize
          totalSize := total })
        |> progressCallback E handler.request
  | none => s

end LCS3Hander

open LCS3Hander

/-! ### Steps -/

/-- The events of the service, the handler and S3. -/
inductive HanderEvent where
  | service (e : Event)
  /-- The service calls a method of the handler. -/
  | call (r : CallRef)
  /-- Somebody else calls a method of the handler. -/
  | request (method : HanderMethod) (task : TaskRef)
  /-- The `i`-th waiting continuation goes on. -/
  | goOn (i : Nat) (url : Option String) (error : Option NSError)
  /-- A transfer ends. -/
  | ends (transfer : TransferRef) (error : Option NSError)
  /-- S3 answers a download with an error that has a body. -/
  | body (transfer : TransferRef) (body : Bytes)
  | progress (transfer : TransferRef) (completed total : Int)
  | loadHistory (uploadTask multiPartUploadTask downloadTask : List TransferRef)
  deriving DecidableEq

/-- The call of the service has not been made as a request yet. -/
def uncalled (r : CallRef) (s : System) : Bool :=
  r < s.calls.next && (List.range s.requests.next).all
    (fun q => (s.requests.cell q).call ≠ some r)

/-- The system after an event; the blocks of the service are called by the handler only. -/
def System.step (E : Env) (s : System) : HanderEvent → System
  | .service .restart => System.initial s.db s.disk s.transfers s.bucket
  | .service (.progress _) | .service (.finish _ _) => s
  | .service e => s.mapState (fun s => LCCFileService.step E s e)
  | .call r =>
      if uncalled r s then
        request E ⟨(s.calls.cell r).method, s.taskOf (s.calls.cell r).op, some r⟩ s
      else s
  | .request method task =>
      if task < s.tasks.next then request E ⟨method, task, none⟩ s else s
  | .goOn i url error =>
      match s.waiting[i]? with
      | some c => if mayGoOn error s c then goOn E url error c (s.dropWaiting i) else s
      | none => s
  | .ends transfer error => if mayEnd transfer error s then endTransfer E transfer error s else s
  | .body transfer body => if mayMove transfer s then moveItem transfer body s else s
  | .progress transfer completed total =>
      if (s.transfers.cell transfer).live then progressBlock E transfer completed total s else s
  | .loadHistory uploadTask multiPartUploadTask downloadTask =>
      if ∀ r ∈ uploadTask ++ multiPartUploadTask ++ downloadTask, r < s.transfers.next then
        loadHistoryAWSTask uploadTask multiPartUploadTask downloadTask s
      else s

end LCCFileService
