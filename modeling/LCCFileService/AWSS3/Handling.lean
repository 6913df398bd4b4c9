import LCCFileService.AWSS3.Working

/-!
# How the handler handles a request

Apart from reporting progress and taking over the sizes of a finished task, the handler does
little to the service for a request: it calls the finish block, sets properties of the task
other than its sizes, writes files, and raises exceptions.  `Handles E q s s'` says that `s'`
comes from `s` by this, and by whatever the handler does to itself without making requests.
-/

namespace LCCFileService

open LCS3Hander

/-- From `s` the system comes to another by what the handler does for the request `q`, apart from
reporting progress and writing sizes. -/
inductive Handles (E : Env) (q : RequestRef) (s : System) : System → Prop
  | refl : Handles E q s s
  | finish {s' : System} (h : Handles E q s s') (error : Option NSError) :
      Handles E q s (finishCallback E q error s')
  | setTask {s' : System} (h : Handles E q s s') {f : LCFileNetTask → LCFileNetTask}
      (hf : ∀ t, (f t).finishedSize = t.finishedSize) : Handles E q s (s'.setTaskOf q f)
  | disk {s' : System} (h : Handles E q s s') (f : Disk String Bytes → Disk String Bytes) :
      Handles E q s (s'.mapDisk f)
  | raise {s' : System} (h : Handles E q s s') : Handles E q s (s'.mapState State.raise)
  | hander {s' : System} (h : Handles E q s s') {f : Hander → Hander}
      (hf : (f s'.toHander).requests = s'.requests) : Handles E q s (s'.mapHander f)

namespace Handles

variable {E : Env} {q : RequestRef} {s s' s'' : System}

theorem trans (h : Handles E q s s') (h' : Handles E q s' s'') :
  Handles E q s s''
  := by
  induction h' with
  | refl => apply h
  | finish _ error ih => apply ih.finish error
  | setTask _ hf ih => apply ih.setTask hf
  | disk _ f ih => apply ih.disk f
  | raise _ ih => apply ih.raise
  | hander _ hf ih => apply ih.hander hf

theorem wait (h : Handles E q s s') (c : Continuation) :
  Handles E q s (s'.wait c)
  := h.hander rfl

theorem of_replies (h : Replies E q s s') :
  Handles E q s s'
  := by
  induction h with
  | refl => apply refl
  | finish _ error ih => apply ih.finish error
  | wait _ _ _ ih => apply ih.wait _

/-! ### Transfers -/

theorem setTransfer (h : Handles E q s s') (r : TransferRef)
    (f : AWSS3TransferUtilityTask → AWSS3TransferUtilityTask) :
  Handles E q s (s'.setTransfer r f)
  := h.hander rfl

theorem send (h : Handles E q s s') (r : TransferRef) (message : TransferMessage)
    (f : AWSS3TransferUtilityTask → AWSS3TransferUtilityTask) :
  Handles E q s (s'.send r message f)
  := (h.setTransfer r f).hander rfl

theorem removeObject (h : Handles E q s s') (q' : RequestRef) :
  Handles E q s (LCS3Hander.removeObject q' s')
  := by
  rw [LCS3Hander.removeObject]
  split
  · apply h.hander rfl
  · apply h.raise

theorem setObject (h : Handles E q s s') (q' : RequestRef) (r : TransferRef) :
  Handles E q s (LCS3Hander.setObject q' r s')
  := by
  rw [LCS3Hander.setObject]
  split
  · apply h.hander rfl
  · apply h.raise

theorem answerCompletion (kind : TransferKind) (error : Option NSError) (s : System) :
  Handles E q s (LCS3Hander.answerCompletion E kind q error s)
  := by
  rw [LCS3Hander.answerCompletion]
  split
  · apply refl.finish error
  · split
    · have hmd5 : Handles E q s (setMd5 E q s) := refl.setTask (fun _ => rfl)
      apply hmd5.finish none
    · apply refl.wait _

/-- The completion handler of a request runs. -/
theorem complete {r : TransferRef}
    (hq : ∀ handler ∈ (s.transfers.cell r).completionHandler, handler.request = q) :
  Handles E q s (LCS3Hander.complete E r s)
  := by
  rw [LCS3Hander.complete]
  split
  · next handler hhandler =>
      obtain rfl := hq handler hhandler
      have hanswer := @answerCompletion E handler.request (s.transfers.cell r).kind
        (s.transfers.cell r).error s
      apply setTransfer
      rw [runCompletionHandler]
      split
      · apply hanswer.removeObject _
      · apply hanswer
  · apply refl

theorem setCompletionHandler (r : TransferRef) (removes : Bool) (s : System) :
  Handles E q s (LCS3Hander.setCompletionHandler E r ⟨q, removes⟩ s)
  := by
  have hsend : Handles E q s (s.send r .setCompletionHandler
      (fun t => { t with completionHandler := some ⟨q, removes⟩ })) := refl.send r _ _
  rw [LCS3Hander.setCompletionHandler]
  split
  · apply hsend.trans
    apply complete
    intro handler hhandler
    rw [System.cell_send, if_pos rfl] at hhandler
    obtain rfl := Option.some.inj hhandler
    rfl
  · apply hsend

/-- A transfer ends that has, if any, a completion handler of the request. -/
theorem endTransfer {r : TransferRef} (error : Option NSError)
    (hq : ∀ handler ∈ (s.transfers.cell r).completionHandler, handler.request = q) :
  Handles E q s (LCS3Hander.endTransfer E r error s)
  := by
  have hmoved : ∃ s', Handles E q s s' ∧ s'.transfers = s.transfers ∧
      (if error.isSome then s else transferred (s.transfers.cell r) s) = s' := by
    refine ⟨_, ?_, ?_, rfl⟩
    · split
      · apply refl
      · rw [transferred]
        split
        · split
          · apply refl
          · apply refl.disk _
        · apply refl.hander rfl
    · split
      · rfl
      · rw [transferred]
        split
        · split
          · rfl
          · rfl
        · rfl
  obtain ⟨s', hmoved, htransfers, heq⟩ := hmoved
  rw [LCS3Hander.endTransfer, heq]
  apply (hmoved.setTransfer r (AWSS3TransferUtilityTask.finish error)).trans
  apply complete
  intro handler hhandler
  rw [System.cell_setTransfer, if_pos rfl, htransfers] at hhandler
  apply hq handler hhandler

/-! ### Methods -/

theorem resumTask (takes : TransferKind → Bool) (s : System) :
  Handles E q s (LCS3Hander.resumTask E takes q s)
  := by
  rw [LCS3Hander.resumTask]
  split
  · split
    · apply (setCompletionHandler _ false s).send _ _ _
    · apply refl
  · apply refl.finish _

theorem callMethod (s : System) :
  Handles E q s (LCS3Hander.callMethod E q s)
  := by
  rw [LCS3Hander.callMethod]
  split
  · apply of_replies (Replies.lcFileNetHanderUpload s)
  · apply of_replies (Replies.lcFileNetHanderDownload s)
  · apply resumTask
  · apply resumTask
  · rw [lcFileNetHanderCancelTask]
    split
    · apply refl.send _ _ _
    · apply refl
  · rw [lcFileNetHanderPauseTask]
    split
    · apply refl.send _ _ _
    · apply refl

/-- What goes on, unless it takes over the sizes of a finished task. -/
theorem goOn {c : Continuation} (hcopyURL : ∀ q source, c ≠ .copyURL q source)
    (hcopied : ∀ q source error, c ≠ .copied q source error) (url : Option String)
    (error : Option NSError) (s : System) :
  Handles E c.request s (LCS3Hander.goOn E url error c s)
  := by
  cases c with
  | replicate q source key =>
      cases error with
      | some error => apply of_replies (Replies.copyCallback error s)
      | none =>
          have hobject : Handles E q s (replicateObject source.fileKey key s) := by
            unfold replicateObject
            split
            · apply refl.hander rfl
            · apply refl
          apply hobject.wait _
  | copyURL q source => apply absurd rfl (hcopyURL q source)
  | copyItem q source =>
      rw [LCS3Hander.goOn]
      unfold copyItemAtPath
      split
      · apply refl.hander rfl
      · apply refl.wait _
      · next path _ =>
          have hfile : Handles E q s (LCS3Hander.copyItem source.filePath path s) := by
            unfold LCS3Hander.copyItem
            split
            · apply refl.disk _
            · apply refl
          apply hfile.wait _
  | copied q source copyError => apply absurd rfl (hcopied q source copyError)
  | start q kind key path =>
      cases error with
      | some error => apply refl.finish error
      | none =>
          have halloc : Handles E q s (s.mapHander (fun h => { h with
              transfers := h.transfers.alloc
                { kind, key, path, completionHandler := some ⟨q, true⟩ } })) := refl.hander rfl
          apply halloc.wait _
  | started q r => apply refl.setObject q r
  | url q =>
      have hurl : Handles E q s (s.setTaskOf q (fun task => { task with url })) :=
        refl.setTask (fun _ => rfl)
      apply hurl.finish error

end Handles

end LCCFileService
