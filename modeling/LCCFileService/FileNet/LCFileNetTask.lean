import LCCFileService.Library.Table

/-!
# Transfer tasks and their table

The object `LCFileNetTask`, the row the table `LCFileNetTask` holds of it, and the
operations of `LCFileTaskDB`.  A comparison of a column with nil holds of no row, and an
object without `taskId` cannot be inserted.
-/

namespace LCCFileService

/-- `LCFileNetTaskStatus` -/
inductive LCFileNetTaskStatus where
  | create
  | progress
  | finish
  | failed
  | canceled
  | pause
  | interrupt
  | unkown
  deriving DecidableEq

/-- `LCFileNetTaskType` -/
inductive LCFileNetTaskType where
  | unknown
  | upload
  | download
  deriving DecidableEq

/-- A callback block, by its identity. -/
abbrev Block : Type := Nat

/-- The properties of a task other than its `taskId` that are columns of its table. -/
structure LCFileNetTaskFields where
  fileKey : Option String := none
  md5 : Option String := none
  type : LCFileNetTaskType := .unknown
  status : LCFileNetTaskStatus := .create
  way : Option String := none
  totalSize : Int := 0
  finishedSize : Int := 0
  fileName : Option String := none
  filePath : Option String := none
  url : Option String := none
  deriving DecidableEq, Inhabited

/-- A task object. -/
structure LCFileNetTask extends LCFileNetTaskFields where
  taskId : Option String := none
  progressCallback : Option Block := none
  finishCallback : Option Block := none
  statusCallback : Option Block := none
  deriving DecidableEq, Inhabited

/-- `lc_uploadTask:fileKey:md5:filePath:`, which makes no use of the MD5. -/
def LCFileNetTask.lcUploadTask (taskId fileKey _md5 filePath : String) : LCFileNetTask where
  taskId := taskId
  fileKey := fileKey
  type := .upload
  filePath := filePath

/-- `lc_downlaodTask:fileKey:filePath:url:`, which sets no type. -/
def LCFileNetTask.lcDownlaodTask (taskId fileKey filePath url : String) : LCFileNetTask where
  taskId := taskId
  fileKey := fileKey
  filePath := filePath
  url := url

/-- A row of the table `LCFileNetTask`. -/
structure LCFileNetTaskRow extends LCFileNetTaskFields where
  taskId : String
  deriving DecidableEq

/-- The primary key of the table `LCFileNetTask`. -/
def LCFileNetTaskRow.primary (r : LCFileNetTaskRow) : Option String := some r.taskId

/-- The table `LCFileNetTask`. -/
abbrev TaskTable : Type := Table LCFileNetTaskRow.primary

/-- The object read from a row. -/
def LCFileNetTaskRow.object (r : LCFileNetTaskRow) : LCFileNetTask where
  toLCFileNetTaskFields := r.toLCFileNetTaskFields
  taskId := some r.taskId

namespace LCFileTaskDB

/-- `lc_saveTask:` -/
def lcSaveTask (task : LCFileNetTask) (db : TaskTable) : TaskTable :=
  match task.taskId with
  | some taskId => db.insertOrReplace ⟨task.toLCFileNetTaskFields, taskId⟩
  | none => db

/-- `lc_getTaskByTaskId:` -/
def lcGetTaskByTaskId (taskId : Option String) (db : TaskTable) : Option LCFileNetTaskRow :=
  taskId.bind db.get

/-- `lc_getTaskByMd5:` -/
def lcGetTaskByMd5 (md5 : Option String) (db : TaskTable) : List LCFileNetTaskRow :=
  db.rows.filter (fun r => md5.isSome ∧ r.md5 = md5)

/-- `lc_getTaskByFileKey:` -/
def lcGetTaskByFileKey (fileKey : Option String) (db : TaskTable) : List LCFileNetTaskRow :=
  db.rows.filter (fun r => fileKey.isSome ∧ r.fileKey = fileKey)

/-- `lc_deleteTaskByTaskId:` -/
def lcDeleteTaskByTaskId (taskId : String) (db : TaskTable) : TaskTable :=
  db.deleteKey taskId

/-- An update of the columns other than `taskId` where the `taskId` is the given one. -/
def updateTask (taskId : Option String) (f : LCFileNetTaskFields → LCFileNetTaskFields)
    (db : TaskTable) : TaskTable :=
  match taskId with
  | some taskId =>
      db.updateKey taskId
        (fun r => { r with toLCFileNetTaskFields := f r.toLCFileNetTaskFields })
        (fun _ => rfl)
  | none => db

/-- `lc_updateTask:status:` -/
def lcUpdateTaskStatus (taskId : Option String) (status : LCFileNetTaskStatus) :
    TaskTable → TaskTable :=
  updateTask taskId (fun r => { r with status })

/-- `lc_updateTask:finishedSize:totalSize:` -/
def lcUpdateTaskFinishedSize (taskId : Option String) (finishedSize totalSize : Int) :
    TaskTable → TaskTable :=
  updateTask taskId (fun r => { r with finishedSize, totalSize })

/-- `lc_updateTask:filePath:` -/
def lcUpdateTaskFilePath (taskId : Option String) (filePath : Option String) :
    TaskTable → TaskTable :=
  updateTask taskId (fun r => { r with filePath })

/-! ### The row of a task id after each operation -/

theorem get_lcSaveTask (task : LCFileNetTask) (db : TaskTable) (k : String) :
  (lcSaveTask task db).get k
    = if task.taskId = some k then some ⟨task.toLCFileNetTaskFields, k⟩ else db.get k
  := by
  cases htask : task.taskId with
  | none =>
      rw [lcSaveTask, htask]
      rfl
  | some taskId =>
      have hkey : LCFileNetTaskRow.primary ⟨task.toLCFileNetTaskFields, taskId⟩ = some taskId :=
        rfl
      rw [lcSaveTask, htask, Table.get_insertOrReplace hkey]
      simp only [Option.some.injEq]
      split
      · next hk => rw [hk]
      · rfl

theorem get_lcDeleteTaskByTaskId (taskId : String) (db : TaskTable) (k : String) :
  (lcDeleteTaskByTaskId taskId db).get k = if taskId = k then none else db.get k
  := Table.get_deleteKey taskId k db

theorem get_updateTask (taskId : Option String)
    (f : LCFileNetTaskFields → LCFileNetTaskFields) (db : TaskTable) (k : String) :
  (updateTask taskId f db).get k
    = if taskId = some k then
        (db.get k).map (fun r => { r with toLCFileNetTaskFields := f r.toLCFileNetTaskFields })
      else db.get k
  := by
  cases taskId with
  | none => rfl
  | some taskId =>
      simp only [updateTask, Option.some.injEq]
      apply Table.get_updateKey

/-- The row found at a task id has this task id. -/
theorem taskId_of_get {db : TaskTable} {k : String} {r : LCFileNetTaskRow}
    (h : db.get k = some r) :
  r.taskId = k
  := by
  have hk := Table.key_of_get h
  simpa [LCFileNetTaskRow.primary] using hk

/-- An update keeps the task ids that have a row. -/
@[simp]
theorem isSome_get_updateTask (taskId : Option String)
    (f : LCFileNetTaskFields → LCFileNetTaskFields) (db : TaskTable) (k : String) :
  ((updateTask taskId f db).get k).isSome = (db.get k).isSome
  := by
  rw [get_updateTask]
  split
  · apply Option.isSome_map
  · rfl

end LCFileTaskDB

end LCCFileService
