import LCCFileService.AWSS3.Answers
import LCCFileService.FileNet.Successes

/-!
# How the handler works

Apart from starting, entering and steering transfers, everything the handler does for a request
is made up of a few acts: it calls the blocks of the request, sets properties of its task,
writes files and objects, and lets something wait for it.  `Works E q s s'` says that `s'`
comes from `s` by such acts for the request `q`, and `Replies E q s s'` that it does so by calls
of the finish block and by letting things wait alone.  What these acts keep is kept by the methods
of the handler and by what goes on for them; in particular they are `Still` about transfers.
-/

namespace LCCFileService

open LCS3Hander

/-! ### The service -/

/-- From `s` the service comes to the state by its own steps, in which it is not restarted, and by
what the handler does to its tasks and to files. -/
inductive Driven (E : Env) (s : State) : State → Prop
  | refl : Driven E s s
  | step {s' : State} (h : Driven E s s') {e : Event} (he : e ≠ .restart) :
      Driven E s (LCCFileService.step E s' e)
  | setTask {s' : State} (h : Driven E s s') (r : TaskRef) (f : LCFileNetTask → LCFileNetTask) :
      Driven E s (s'.mapCore (·.setTask r f))
  | disk {s' : State} (h : Driven E s s') (f : Disk String Bytes → Disk String Bytes) :
      Driven E s (s'.mapCore (fun c => { c with disk := f c.disk }))
  | raise {s' : State} (h : Driven E s s') : Driven E s s'.raise

namespace Driven

variable {md5 : Bytes → String} {s s' : State}

/-- Operations, calls and tasks are only added. -/
theorem advance (h : Driven (quiet md5) s s') :
  Advance (fun _ => True) s.toCore s'.toCore
  := by
  induction h with
  | refl => apply (Steady.refl s.toCore).toAdvance
  | step h he ih => apply ih.trans ((Advance.step _ he).mono (fun _ _ => trivial))
  | setTask h r f ih => apply ih.trans (Steady.setTask r f _).toAdvance
  | disk h f ih =>
      apply ih.trans
      apply Steady.toAdvance
      exact Steady.of_eq (Nat.le_refl _) (fun _ _ => rfl) rfl rfl rfl
  | raise h ih => apply ih

theorem wellFormed (h : Driven (quiet md5) s s') (hwf : WellFormed s.toCore) :
  WellFormed s'.toCore
  := by
  induction h with
  | refl => apply hwf
  | step h he ih => apply ih.step _
  | setTask h r f ih => apply ih.setTask r f
  | disk h f ih => exact ih.congr rfl rfl rfl rfl rfl
  | raise h ih => apply ih

theorem callsOwned (h : Driven (quiet md5) s s') (hcalls : CallsOwned s.toCore) :
  CallsOwned s'.toCore
  := by
  induction h with
  | refl => apply hcalls
  | step h he ih => apply ih.step he
  | setTask h r f ih => apply ih
  | disk h f ih => apply ih
  | raise h ih => apply ih

end Driven

/-! ### Changes that are not about transfers -/

/-- From `s` to `s'` no transfer and no entry of `taskDic` changes, no message is sent, and no
started transfer comes to wait for its entry. -/
structure Still (s s' : System) : Prop where
  transfers : s'.transfers = s.transfers
  taskDic : s'.taskDic = s.taskDic
  sent : s'.sent = s.sent
  started : ∀ q r, .started q r ∈ s'.waiting → .started q r ∈ s.waiting

namespace Still

variable {E : Env} {s s' s'' : System}

/-- Changes of the service and of the bucket, and calls of blocks. -/
theorem same (htransfers : s'.transfers = s.transfers) (htaskDic : s'.taskDic = s.taskDic)
    (hsent : s'.sent = s.sent) (hwaiting : s'.waiting = s.waiting) :
  Still s s'
  := by
  refine ⟨htransfers, htaskDic, hsent, ?_⟩
  intro q r hmem
  rw [← hwaiting]
  apply hmem

theorem trans (h : Still s s') (h' : Still s' s'') :
  Still s s''
  := by
  constructor
  · apply h'.transfers.trans h.transfers
  · apply h'.taskDic.trans h.taskDic
  · apply h'.sent.trans h.sent
  · intro q r hmem
    apply h.started q r (h'.started q r hmem)

theorem finishCallback (q : RequestRef) (error : Option NSError) (s : System) :
  Still s (LCS3Hander.finishCallback E q error s)
  := by
  rw [LCS3Hander.finishCallback]
  split
  · exact same rfl rfl rfl rfl
  · exact same rfl rfl rfl rfl

theorem progressCallback (q : RequestRef) (s : System) :
  Still s (LCS3Hander.progressCallback E q s)
  := by
  have hprogress := @Pledges.toHander_progressCallback E q s
  apply same
  · rw [hprogress]
  · rw [hprogress]
  · rw [hprogress]
  · rw [hprogress]

theorem wait {c : Continuation} (hc : c.answers) (s : System) :
  Still s (s.wait c)
  := by
  refine ⟨rfl, rfl, rfl, ?_⟩
  intro q r hmem
  rcases List.mem_append.mp hmem with hmem | hmem
  · apply hmem
  · obtain rfl := List.mem_singleton.mp hmem
    cases hc

theorem dropWaiting (i : Nat) (s : System) :
  Still s (s.dropWaiting i)
  := by
  refine ⟨rfl, rfl, rfl, ?_⟩
  intro q r hmem
  apply List.mem_of_mem_eraseIdx hmem

theorem transferred (t : AWSS3TransferUtilityTask) (s : System) :
  Still s (LCS3Hander.transferred t s)
  := by
  rw [LCS3Hander.transferred]
  split
  · split
    · apply same rfl rfl rfl rfl
    · exact same rfl rfl rfl rfl
  · exact same rfl rfl rfl rfl

end Still

/-! ### Replies to a request -/

/-- From `s` the system comes to another by calls of the finish block of the request `q`, and by
letting things wait for it. -/
inductive Replies (E : Env) (q : RequestRef) (s : System) : System → Prop
  | refl : Replies E q s s
  | finish {s' : System} (h : Replies E q s s') (error : Option NSError) :
      Replies E q s (finishCallback E q error s')
  | wait {s' : System} (h : Replies E q s s') {c : Continuation} (hq : c.request = q)
      (hc : c.answers) : Replies E q s (s'.wait c)

namespace Replies

variable {E : Env} {q : RequestRef}

theorem pStartUpload (s : System) :
  Replies E q s (LCS3Hander.pStartUpload E q s)
  := by
  rw [LCS3Hander.pStartUpload]
  split
  · split
    · exact refl.wait rfl rfl
    · apply refl.finish _
  · apply refl.finish _

theorem pStartDownload (s : System) :
  Replies E q s (LCS3Hander.pStartDownload E q s)
  := by
  rw [LCS3Hander.pStartDownload]
  split
  · exact refl.wait rfl rfl
  · apply refl.finish _

/-- After a failed copy. -/
theorem copyCallback (error : NSError) (s : System) :
  Replies E q s (LCS3Hander.copyCallback E q error s)
  := by
  rw [LCS3Hander.copyCallback, if_pos (Option.isSome_some)]
  split
  · apply pStartUpload
  · apply pStartDownload

theorem pCopyTask (source : LCFileNetTaskRow) (s : System) :
  Replies E q s (LCS3Hander.pCopyTask E q source s)
  := by
  rw [LCS3Hander.pCopyTask]
  split
  · exact refl.wait rfl rfl
  · split
    · exact refl.wait rfl rfl
    · apply copyCallback
  · apply copyCallback

theorem lcFileNetHanderUpload (s : System) :
  Replies E q s (LCS3Hander.lcFileNetHanderUpload E q s)
  := by
  rw [LCS3Hander.lcFileNetHanderUpload]
  split
  · apply pCopyTask
  · apply pStartUpload

theorem lcFileNetHanderDownload (s : System) :
  Replies E q s (LCS3Hander.lcFileNetHanderDownload E q s)
  := by
  rw [LCS3Hander.lcFileNetHanderDownload]
  split
  · apply pCopyTask
  · apply pStartDownload

end Replies

/-! ### Acts for a request -/

/-- From `s` the system comes to another by acts for the request `q`. -/
inductive Works (E : Env) (q : RequestRef) (s : System) : System → Prop
  | refl : Works E q s s
  | finish {s' : System} (h : Works E q s s') (error : Option NSError) :
      Works E q s (finishCallback E q error s')
  | progress {s' : System} (h : Works E q s s') : Works E q s (progressCallback E q s')
  | wait {s' : System} (h : Works E q s s') {c : Continuation} (hq : c.request = q)
      (hc : c.answers) : Works E q s (s'.wait c)
  | setTask {s' : System} (h : Works E q s s') (f : LCFileNetTask → LCFileNetTask) :
      Works E q s (s'.setTaskOf q f)
  | disk {s' : System} (h : Works E q s s') (f : Disk String Bytes → Disk String Bytes) :
      Works E q s (s'.mapDisk f)
  | bucket {s' : System} (h : Works E q s s') (f : Disk String Bytes → Disk String Bytes) :
      Works E q s (s'.mapBucket f)
  | throw {s' : System} (h : Works E q s s') : Works E q s (throwException s')

namespace Works

variable {E : Env} {q : RequestRef} {s s' s'' : System}

theorem trans (h : Works E q s s') (h' : Works E q s' s'') :
  Works E q s s''
  := by
  induction h' with
  | refl => apply h
  | finish _ error ih => apply ih.finish error
  | progress _ ih => apply ih.progress
  | wait _ hq hc ih => apply ih.wait hq hc
  | setTask _ f ih => apply ih.setTask f
  | disk _ f ih => apply ih.disk f
  | bucket _ f ih => apply ih.bucket f
  | throw _ ih => apply ih.throw

/-! ### What acts keep -/

theorem still (h : Works E q s s') :
  Still s s'
  := by
  induction h with
  | refl => apply Still.same rfl rfl rfl rfl
  | finish _ error ih => apply ih.trans (Still.finishCallback q error _)
  | progress _ ih => apply ih.trans (Still.progressCallback q _)
  | wait _ hq hc ih => apply ih.trans (Still.wait hc _)
  | setTask _ f ih => exact ih.trans (Still.same rfl rfl rfl rfl)
  | disk _ f ih => exact ih.trans (Still.same rfl rfl rfl rfl)
  | bucket _ f ih => exact ih.trans (Still.same rfl rfl rfl rfl)
  | throw _ ih => exact ih.trans (Still.same rfl rfl rfl rfl)

/-- The service comes to its state by its own steps. -/
theorem driven (h : Works E q s s') :
  Driven E s.toState s'.toState
  := by
  induction h with
  | refl => apply Driven.refl
  | finish _ error ih =>
      rw [finishCallback]
      split
      · next r _ => exact ih.step (e := .finish r error) (by rintro ⟨⟩)
      · apply ih
  | progress _ ih =>
      rw [progressCallback]
      split
      · next r _ => exact ih.step (e := .progress r) (by rintro ⟨⟩)
      · apply ih
  | wait _ hq hc ih => apply ih
  | setTask _ f ih => apply ih.setTask _ f
  | disk _ f ih => apply ih.disk f
  | bucket _ f ih => apply ih
  | throw _ ih => apply ih

/-- No request is made, and what comes to wait waits for the request. -/
theorem waits (h : Works E q s s') :
  s'.requests = s.requests ∧ ∀ c ∈ s'.waiting, c ∈ s.waiting ∨ c.request = q
  := by
  induction h with
  | refl => exact ⟨rfl, fun _ hc => Or.inl hc⟩
  | finish _ error ih =>
      rw [finishCallback]
      split
      · apply ih
      · apply ih
  | progress _ ih =>
      rw [progressCallback]
      split
      · apply ih
      · apply ih
  | wait _ hq hc ih =>
      refine ⟨ih.1, ?_⟩
      intro c hmem
      rcases List.mem_append.mp hmem with hmem | hmem
      · apply ih.2 c hmem
      · obtain rfl := List.mem_singleton.mp hmem
        apply Or.inr hq
  | setTask _ f ih => apply ih
  | disk _ f ih => apply ih
  | bucket _ f ih => apply ih
  | throw _ ih => apply ih

/-! ### What the handler does -/

theorem of_replies (h : Replies E q s s') :
  Works E q s s'
  := by
  induction h with
  | refl => apply refl
  | finish _ error ih => apply ih.finish error
  | wait _ hq hc ih => apply ih.wait hq hc

theorem copyCallback (error : Option NSError) (s : System) :
  Works E q s (LCS3Hander.copyCallback E q error s)
  := by
  cases error with
  | some error => apply of_replies (Replies.copyCallback error s)
  | none => apply refl.progress.finish none

theorem answerCompletion (kind : TransferKind) (error : Option NSError) (s : System) :
  Works E q s (LCS3Hander.answerCompletion E kind q error s)
  := by
  rw [LCS3Hander.answerCompletion]
  split
  · apply refl.finish error
  · split
    · apply (refl.setTask _).finish none
    · exact refl.wait rfl rfl

theorem progressed (completed total : Int) (s : System) :
  Works E q s (LCS3Hander.progressCallback E q (s.setTaskOf q (fun task => { task with
    finishedSize := max completed task.finishedSize
    totalSize := total })))
  := (refl.setTask _).progress

theorem replicateObject (sourceKey key : Option String) (s : System) :
  Works E q s (LCS3Hander.replicateObject sourceKey key s)
  := by
  unfold LCS3Hander.replicateObject
  split
  · apply refl.bucket _
  · apply refl

theorem copyItem (sourcePath : Option String) (path : String) (s : System) :
  Works E q s (LCS3Hander.copyItem sourcePath path s)
  := by
  unfold LCS3Hander.copyItem
  split
  · apply refl.disk _
  · apply refl

/-- What goes on works for its request, unless it is about a transfer. -/
theorem goOn {c : Continuation} (hstart : ∀ q kind key path, c ≠ .start q kind key path)
    (hstarted : ∀ q r, c ≠ .started q r) (url : Option String) (error : Option NSError)
    (s : System) :
  Works E c.request s (LCS3Hander.goOn E url error c s)
  := by
  cases c with
  | replicate q source key =>
      cases error with
      | some error => apply copyCallback
      | none => exact (replicateObject _ _ s).wait rfl rfl
  | copyURL q source => apply (refl.setTask _).trans (copyCallback error _)
  | copyItem q source =>
      rw [LCS3Hander.goOn]
      unfold copyItemAtPath
      split
      · apply refl.throw
      · exact refl.wait rfl rfl
      · exact (copyItem _ _ s).wait rfl rfl
  | copied q source copyError =>
      cases copyError with
      | some copyError => apply (refl.setTask _).trans (copyCallback _ _)
      | none => apply ((refl.setTask _).setTask _).trans (copyCallback _ _)
  | start q kind key path => apply absurd rfl (hstart q kind key path)
  | started q r => apply absurd rfl (hstarted q r)
  | url q => apply (refl.setTask _).finish error

end Works

end LCCFileService
