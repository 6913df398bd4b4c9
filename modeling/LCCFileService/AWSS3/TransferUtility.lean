import LCCFileService.FileNet.LCFileNetService

/-!
# Transfers of the AWS utility

`AWSS3TransferUtilityTask` and its subclasses, as far as the handler uses them.  The
completion handler installed in a transfer is called when the transfer ends, or as soon as
it is installed if the transfer has ended before, and is released then; a cancelled
transfer never ends.
-/

namespace LCCFileService

/-- A reference to a transfer. -/
abbrev TransferRef : Type := Nat

/-- A reference to a call of a method of `LCS3Hander`. -/
abbrev RequestRef : Type := Nat

/-- The subclasses of `AWSS3TransferUtilityTask`. -/
inductive TransferKind where
  | upload
  | multiPartUpload
  | download
  deriving DecidableEq, Inhabited

/-- The statuses of `AWSS3TransferUtilityTransferStatusType` that the handler's transfers have. -/
inductive TransferStatus where
  | inProgress
  | paused
  | completed
  | error
  | cancelled
  deriving DecidableEq, Inhabited

/-- A completion handler, by the request whose finish block it calls; `removes` says that it was
given to the utility with the start of the transfer, and removes it from `taskDic`. -/
structure CompletionHandler where
  request : RequestRef
  removes : Bool
  deriving DecidableEq

/-- A transfer between the object of a key and the file at a path. -/
structure AWSS3TransferUtilityTask where
  kind : TransferKind
  key : String
  path : String
  status : TransferStatus := .inProgress
  error : Option NSError := none
  completionHandler : Option CompletionHandler := none
  deriving DecidableEq, Inhabited

/-- The messages the handler sends to a transfer. -/
inductive TransferMessage where
  | setCompletionHandler
  | resume
  | suspend
  | cancel
  deriving DecidableEq

namespace AWSS3TransferUtilityTask

/-- The test of `setCompletionHandler:` whether the transfer has ended. -/
def ended (t : AWSS3TransferUtilityTask) : Bool := t.status = .completed || t.error.isSome

/-- The transfer may still end. -/
def live (t : AWSS3TransferUtilityTask) : Bool := t.status = .inProgress || t.status = .paused

/-- `suspend` -/
def suspend (t : AWSS3TransferUtilityTask) : AWSS3TransferUtilityTask :=
  if t.status = .inProgress then { t with status := .paused } else t

/-- `resume` -/
def resume (t : AWSS3TransferUtilityTask) : AWSS3TransferUtilityTask :=
  if t.status = .paused then { t with status := .inProgress } else t

/-- `cancel` -/
def cancel (t : AWSS3TransferUtilityTask) : AWSS3TransferUtilityTask :=
  { t with status := .cancelled }

/-- The transfer ends. -/
def finish (error : Option NSError) (t : AWSS3TransferUtilityTask) : AWSS3TransferUtilityTask :=
  { t with status := if error.isSome then .error else .completed, error }

@[simp]
theorem completionHandler_suspend (t : AWSS3TransferUtilityTask) :
  t.suspend.completionHandler = t.completionHandler
  := by
  rw [suspend]
  split
  · rfl
  · rfl

@[simp]
theorem completionHandler_resume (t : AWSS3TransferUtilityTask) :
  t.resume.completionHandler = t.completionHandler
  := by
  rw [resume]
  split
  · rfl
  · rfl

/-- Suspending ends no transfer. -/
theorem ended_suspend (t : AWSS3TransferUtilityTask) :
  t.suspend.ended = t.ended
  := by
  rw [suspend]
  split
  · next h => simp [ended, h]
  · rfl

/-- Resuming ends no transfer. -/
theorem ended_resume (t : AWSS3TransferUtilityTask) :
  t.resume.ended = t.ended
  := by
  rw [resume]
  split
  · next h => simp [ended, h]
  · rfl

/-- Cancelling ends no transfer. -/
theorem ended_of_cancel {t : AWSS3TransferUtilityTask} (h : t.cancel.ended) :
  t.ended
  := by
  simp only [cancel, ended, Bool.or_eq_true] at h ⊢
  right
  simpa using h

end AWSS3TransferUtilityTask

end LCCFileService
