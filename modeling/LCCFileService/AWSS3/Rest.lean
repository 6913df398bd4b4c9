import LCCFileService.FileNet.Workload
import LCCFileService.AWSS3.Attended
import LCCFileService.AWSS3.LiveEntries

/-!
# Coming to rest

The service, the handler and S3 come to rest unless they are asked for something again and again:
whatever they do, and in whichever order, they do it only so many times for what they were asked
for.  What waits counts for all that can follow it: a copy that fails is followed by the start of a
transfer, a start by the block that gets the transfer and by the end of the transfer, this by the
request for its URL, and the answer of a resumption by one other call of the handler.
-/

namespace LCCFileService

open LCS3Hander LCFileNetOperation

/-! ### What there is to do -/

/-- The work that the finish block of a request adds at most. -/
def retry (requests : Heap Request) (q : RequestRef) : Nat :=
  if (requests.cell q).method.resumes then 7 else 0

/-- The work of what waits. -/
def Continuation.work (requests : Heap Request) : Continuation → Nat
  | .started _ _ => 1
  | .url q => 1 + retry requests q
  | .start q _ _ _ => 4 + retry requests q
  | .copyURL q _ | .copied q _ _ => 5 + retry requests q
  | .replicate q _ _ | .copyItem q _ => 6 + retry requests q

/-- The work of a transfer, which ends and then runs its completion handler. -/
def AWSS3TransferUtilityTask.work (requests : Heap Request) (t : AWSS3TransferUtilityTask) : Nat :=
  if t.live then 2 + t.completionHandler.elim 0 (fun handler => retry requests handler.request)
  else 0

namespace AWSS3TransferUtilityTask

/-- A transfer that may still end as before, with the same completion handler, is the same work. -/
theorem work_congr {requests : Heap Request} {t t' : AWSS3TransferUtilityTask}
    (hlive : t'.live = t.live) (hhandler : t'.completionHandler = t.completionHandler) :
  t'.work requests = t.work requests
  := by
  rw [work, work, hlive, hhandler]

/-- A completion handler is no more work than that of its request. -/
theorem work_completionHandler (requests : Heap Request) (t : AWSS3TransferUtilityTask)
    (handler : Option CompletionHandler) :
  { t with completionHandler := handler }.work requests
    ≤ t.work requests + handler.elim 0 (fun handler => retry requests handler.request)
  := by
  have hlive : { t with completionHandler := handler }.live = t.live := rfl
  rw [work, work, hlive]
  cases t.live with
  | true =>
      simp only [if_true]
      omega
  | false => apply Nat.zero_le

end AWSS3TransferUtilityTask

/-- The work of what waits and of the transfers. -/
def Hander.work (h : Hander) : Nat :=
  (h.waiting.map (Continuation.work h.requests)).sum
    + h.transfers.total (fun _ t => t.work h.requests)

/-- What a change adds to the work of a transfer is added to the work. -/
theorem Hander.work_modify {h : Hander} {r : TransferRef} {n : Nat}
    {f : AWSS3TransferUtilityTask → AWSS3TransferUtilityTask}
    (hf : (f (h.transfers.cell r)).work h.requests ≤ (h.transfers.cell r).work h.requests + n) :
  { h with transfers := h.transfers.modify r f }.work ≤ h.work + n
  := by
  have htotal := Heap.total_modify_le (f := fun _ t => AWSS3TransferUtilityTask.work h.requests t)
    hf
  have hwork : { h with transfers := h.transfers.modify r f }.work
      = (h.waiting.map (Continuation.work h.requests)).sum
        + (h.transfers.modify r f).total (fun _ t => t.work h.requests) := rfl
  rw [hwork, work]
  omega

/-- The call of the service is no request yet. -/
def unmade (requests : Heap Request) (r : CallRef) : Bool :=
  (List.range requests.next).all (fun q => (requests.cell q).call ≠ some r)

/-- The work of the system. -/
def System.work (s : System) : Nat := s.toCore.work (unmade s.requests) + s.toHander.work

/-- What the handler adds to its work is added to the work of the system. -/
theorem System.work_le_of_hander {s s' : System} {n : Nat} (hstate : s'.toState = s.toState)
    (hrequests : s'.requests = s.requests) (hwork : s'.toHander.work ≤ s.toHander.work + n) :
  s'.work ≤ s.work + n
  := by
  rw [work, work, hstate, hrequests]
  omega

/-- If the request is a call of the service, it is one of the same method. -/
def Placed (q : RequestRef) (s : System) : Prop :=
  ∀ r, (s.requests.cell q).call = some r →
    r < s.calls.next ∧ (s.calls.cell r).method = (s.requests.cell q).method

/-- From `s` to `s'` at most the work `n` is added for the request `q`. -/
structure Costs (q : RequestRef) (n : Nat) (s s' : System) : Prop where
  requests : s'.requests = s.requests
  placed : Placed q s → Placed q s'
  work : Placed q s → s'.work ≤ s.work + n

namespace Costs

variable {md5 : Bytes → String} {q : RequestRef} {n m : Nat} {s s' s'' : System}

theorem refl (s : System) :
  Costs q 0 s s
  := ⟨rfl, id, fun _ => Nat.le_refl _⟩

theorem mono (h : Costs q n s s') (hnm : n ≤ m) :
  Costs q m s s'
  := ⟨h.requests, h.placed, fun hq => Nat.le_trans (h.work hq) (Nat.add_le_add_left hnm _)⟩

theorem trans (h : Costs q n s s') (h' : Costs q m s' s'') :
  Costs q (n + m) s s''
  := by
  constructor
  · apply h'.requests.trans h.requests
  · intro hq
    apply h'.placed (h.placed hq)
  · intro hq
    have hle := h.work hq
    have hle' := h'.work (h.placed hq)
    omega

/-- The service does something, and keeps the methods of the calls. -/
theorem of_service (hhander : s'.toHander = s.toHander)
    (hcalls : ∀ r < s.calls.next, r < s'.calls.next ∧
      (s'.calls.cell r).method = (s.calls.cell r).method)
    (hadds : Placed q s → Adds n s.toCore s'.toCore) :
  Costs q n s s'
  := by
  constructor
  · rw [hhander]
  · intro hq r hr
    rw [hhander] at hr ⊢
    obtain ⟨hlt, hmethod⟩ := hq r hr
    obtain ⟨hlt', hmethod'⟩ := hcalls r hlt
    exact ⟨hlt', hmethod'.trans hmethod⟩
  · intro hq
    have hle := hadds hq (unmade s.requests)
    rw [System.work, System.work, hhander]
    omega

/-- The handler changes. -/
theorem of_hander (hstate : s'.toState = s.toState) (hrequests : s'.requests = s.requests)
    (hwork : s'.toHander.work ≤ s.toHander.work + n) :
  Costs q n s s'
  := by
  constructor
  · apply hrequests
  · intro hq r hr
    rw [hrequests] at hr ⊢
    rw [hstate]
    apply hq r hr
  · exact fun _ => System.work_le_of_hander hstate hrequests hwork

/-! ### What goes on in the service -/

/-- The service takes a step that the handler makes it take. -/
theorem step {e : Event} (he : ActOfHander s.toState e)
    (hadds : Placed q s → Adds n s.toCore (LCCFileService.step (quiet md5) s.toState e).toCore) :
  Costs q n s (s.mapState (fun s => LCCFileService.step (quiet md5) s e))
  := by
  have hadvance := @Advance.step md5 s.toState e (by
    rintro rfl
    cases he)
  refine of_service rfl ?_ hadds
  intro r hr
  exact ⟨Nat.lt_of_lt_of_le hr hadvance.calls_le, hadvance.method r hr⟩

theorem finishCallback (error : Option NSError) (s : System) :
  Costs q (retry s.requests q) s (LCS3Hander.finishCallback (quiet md5) q error s)
  := by
  have hanswers : Costs q 0 s
      (s.mapHander (fun h => { h with answers := h.answers ++ [(q, error)] })) :=
    of_hander rfl rfl (Nat.le_refl _)
  rw [LCS3Hander.finishCallback]
  split
  · next r hr =>
      have hstep : Costs q (retry s.requests q)
          (s.mapHander (fun h => { h with answers := h.answers ++ [(q, error)] }))
          ((s.mapHander (fun h => { h with answers := h.answers ++ [(q, error)] })).mapState
            (fun s => LCCFileService.step (quiet md5) s (.finish r error))) := by
        refine step (e := .finish r error) trivial ?_
        intro hq
        apply adds_finish
        intro hresumes
        have hmethod : (s.calls.cell r).method = (s.requests.cell q).method := (hq r hr).2
        rw [retry, if_pos]
        rw [← hmethod]
        apply hresumes
      apply (hanswers.trans hstep).mono
      omega
  · apply hanswers.mono (Nat.zero_le _)

theorem progressCallback (s : System) :
  Costs q 0 s (LCS3Hander.progressCallback (quiet md5) q s)
  := by
  rw [LCS3Hander.progressCallback]
  split
  · next r _ => exact step (e := .progress r) trivial (fun _ => adds_progress r)
  · apply refl

/-- Tasks and files are no work. -/
theorem of_eq (hhander : s'.toHander = s.toHander) (hcalls : s'.calls = s.calls)
    (hops : s'.ops = s.ops) (hpending : s'.pending = s.pending) :
  Costs q 0 s s'
  := by
  refine of_service hhander ?_ (fun _ => Adds.of_eq hops hpending hcalls)
  intro r hr
  rw [hcalls]
  exact ⟨hr, rfl⟩

theorem setTaskOf (q' : RequestRef) (f : LCFileNetTask → LCFileNetTask) (s : System) :
  Costs q 0 s (s.setTaskOf q' f)
  := of_eq rfl rfl rfl rfl

theorem setMd5 (q' : RequestRef) (s : System) :
  Costs q 0 s (LCS3Hander.setMd5 (quiet md5) q' s)
  := setTaskOf q' _ s

/-! ### What goes on in the handler -/

theorem wait (c : Continuation) (s : System) :
  Costs q (c.work s.requests) s (s.wait c)
  := by
  refine of_hander rfl rfl ?_
  have hsum : ((s.waiting ++ [c]).map (Continuation.work s.requests)).sum
      = (s.waiting.map (Continuation.work s.requests)).sum + c.work s.requests := by
    rw [List.map_append, List.sum_append, List.map_singleton, List.sum_singleton]
  have hwork : (s.wait c).toHander.work
      = ((s.waiting ++ [c]).map (Continuation.work s.requests)).sum
        + s.transfers.total (fun _ t => t.work s.requests) := rfl
  rw [hwork, hsum, Hander.work]
  omega

/-- A transfer changes. -/
theorem setTransfer {r : TransferRef} {f : AWSS3TransferUtilityTask → AWSS3TransferUtilityTask}
    (hf : (f (s.transfers.cell r)).work s.requests ≤ (s.transfers.cell r).work s.requests + n) :
  Costs q n s (s.setTransfer r f)
  := of_hander rfl rfl (Hander.work_modify hf)

theorem send {r : TransferRef} {message : TransferMessage}
    {f : AWSS3TransferUtilityTask → AWSS3TransferUtilityTask}
    (hf : (f (s.transfers.cell r)).work s.requests ≤ (s.transfers.cell r).work s.requests + n) :
  Costs q n s (s.send r message f)
  := by
  have hsent : Costs q 0 (s.setTransfer r f) (s.send r message f) :=
    of_hander rfl rfl (Nat.le_refl _)
  apply (setTransfer hf).trans hsent

theorem removeObject (q' : RequestRef) (s : System) :
  Costs q 0 s (LCS3Hander.removeObject q' s)
  := by
  rw [LCS3Hander.removeObject]
  split
  · exact of_hander rfl rfl (Nat.le_refl _)
  · exact of_eq rfl rfl rfl rfl

theorem setObject (q' : RequestRef) (r : TransferRef) (s : System) :
  Costs q 0 s (LCS3Hander.setObject q' r s)
  := by
  rw [LCS3Hander.setObject]
  split
  · exact of_hander rfl rfl (Nat.le_refl _)
  · exact of_eq rfl rfl rfl rfl

/-- What the completion handler of the request does; a resumed upload still gets its URL. -/
theorem answerCompletion (kind : TransferKind) (error : Option NSError) (s : System) :
  Costs q (1 + retry s.requests q) s (LCS3Hander.answerCompletion (quiet md5) kind q error s)
  := by
  rw [LCS3Hander.answerCompletion]
  split
  · apply (finishCallback error s).mono
    omega
  · split
    · apply ((setMd5 q s).trans (finishCallback none _)).mono
      have hrequests : (LCS3Hander.setMd5 (quiet md5) q s).requests = s.requests := rfl
      rw [hrequests]
      omega
    · exact wait (.url q) s

/-- The completion handler of a request runs, if the transfer has one. -/
theorem complete {r : TransferRef}
    (hr : ∀ handler ∈ (s.transfers.cell r).completionHandler, handler.request = q) :
  Costs q (1 + retry s.requests q) s (LCS3Hander.complete (quiet md5) r s)
  := by
  rw [LCS3Hander.complete]
  split
  · next handler hhandler =>
      obtain rfl := hr handler hhandler
      have hrun : Costs handler.request (1 + retry s.requests handler.request) s
          (runCompletionHandler (quiet md5) (s.transfers.cell r).kind handler
            (s.transfers.cell r).error s) := by
        have hanswer := @answerCompletion md5 handler.request (s.transfers.cell r).kind
          (s.transfers.cell r).error s
        rw [runCompletionHandler]
        split
        · apply hanswer.trans (removeObject handler.request _)
        · apply hanswer
      refine (hrun.trans (setTransfer (n := 0) ?_)).mono (Nat.le_refl _)
      -- the completion handler is released
      apply AWSS3TransferUtilityTask.work_completionHandler _ _ none
  · apply (refl s).mono (Nat.zero_le _)

theorem setCompletionHandler (r : TransferRef) (removes : Bool) (s : System) :
  Costs q (1 + 2 * retry s.requests q) s
    (LCS3Hander.setCompletionHandler (quiet md5) r ⟨q, removes⟩ s)
  := by
  have hsend : Costs q (retry s.requests q) s (s.send r .setCompletionHandler
      (fun t => { t with completionHandler := some ⟨q, removes⟩ })) := by
    apply send
    apply AWSS3TransferUtilityTask.work_completionHandler _ _ (some ⟨q, removes⟩)
  rw [LCS3Hander.setCompletionHandler]
  split
  · have hcomplete := @complete md5 q (s.send r .setCompletionHandler
      (fun t => { t with completionHandler := some ⟨q, removes⟩ })) r (by
        intro handler hhandler
        rw [System.cell_send, if_pos rfl] at hhandler
        obtain rfl := Option.some.inj hhandler
        rfl)
    apply (hsend.trans hcomplete).mono
    rw [hsend.requests]
    omega
  · apply hsend.mono
    omega

/-! ### Methods and continuations -/

theorem pStartUpload (s : System) :
  Costs q (4 + retry s.requests q) s (LCS3Hander.pStartUpload (quiet md5) q s)
  := by
  rw [LCS3Hander.pStartUpload]
  split
  · next fileKey filePath _ _ =>
      split
      · exact wait (.start q _ fileKey filePath) s
      · apply (finishCallback _ s).mono
        omega
  · apply (finishCallback _ s).mono
    omega

theorem pStartDownload (s : System) :
  Costs q (4 + retry s.requests q) s (LCS3Hander.pStartDownload (quiet md5) q s)
  := by
  rw [LCS3Hander.pStartDownload]
  split
  · next fileKey filePath _ _ => exact wait (.start q .download fileKey filePath) s
  · apply (finishCallback _ s).mono
    omega

theorem copyCallback (error : Option NSError) (s : System) :
  Costs q (4 + retry s.requests q) s (LCS3Hander.copyCallback (quiet md5) q error s)
  := by
  rw [LCS3Hander.copyCallback]
  split
  · split
    · apply pStartUpload
    · apply pStartDownload
  · have hprogress := @progressCallback md5 q s
    apply (hprogress.trans (finishCallback none _)).mono
    rw [hprogress.requests]
    omega

theorem pCopyTask (source : LCFileNetTaskRow) (s : System) :
  Costs q (6 + retry s.requests q) s (LCS3Hander.pCopyTask (quiet md5) q source s)
  := by
  rw [LCS3Hander.pCopyTask]
  split
  · exact wait (.replicate q source _) s
  · split
    · exact wait (.copyItem q source) s
    · apply (copyCallback _ s).mono
      omega
  · apply (copyCallback _ s).mono
    omega

theorem lcFileNetHanderUpload (s : System) :
  Costs q (6 + retry s.requests q) s (LCS3Hander.lcFileNetHanderUpload (quiet md5) q s)
  := by
  rw [LCS3Hander.lcFileNetHanderUpload]
  split
  · apply pCopyTask
  · apply (pStartUpload s).mono
    omega

theorem lcFileNetHanderDownload (s : System) :
  Costs q (6 + retry s.requests q) s (LCS3Hander.lcFileNetHanderDownload (quiet md5) q s)
  := by
  rw [LCS3Hander.lcFileNetHanderDownload]
  split
  · apply pCopyTask
  · apply (pStartDownload s).mono
    omega

theorem resumTask (takes : TransferKind → Bool) (s : System) :
  Costs q (1 + 2 * retry s.requests q) s (LCS3Hander.resumTask (quiet md5) takes q s)
  := by
  rw [LCS3Hander.resumTask]
  split
  · next r _ =>
      split
      · refine ((setCompletionHandler r false s).trans (send (n := 0) ?_)).mono (Nat.le_refl _)
        rw [AWSS3TransferUtilityTask.work_congr (live_resume _)
          (AWSS3TransferUtilityTask.completionHandler_resume _)]
        apply Nat.le_refl
      · apply (refl s).mono (Nat.zero_le _)
  · apply (finishCallback _ s).mono
    omega

/-- Messages that leave the completion handler, and revive no transfer, cost nothing. -/
theorem send_same {r : TransferRef} {message : TransferMessage}
    {f : AWSS3TransferUtilityTask → AWSS3TransferUtilityTask}
    (hlive : ∀ t, (f t).live → t.live) (hf : ∀ t, (f t).completionHandler = t.completionHandler)
    (s : System) :
  Costs q 0 s (s.send r message f)
  := by
  apply send
  rw [AWSS3TransferUtilityTask.work, AWSS3TransferUtilityTask.work, hf]
  split
  · next h =>
      rw [if_pos (hlive _ h)]
      apply Nat.le_refl
  · apply Nat.zero_le

/-- The method of a request that is called costs less than the call. -/
theorem callMethod (s : System) :
  Costs q ((s.requests.cell q).method.work - 1) s (LCS3Hander.callMethod (quiet md5) q s)
  := by
  rw [LCS3Hander.callMethod]
  cases hmethod : (s.requests.cell q).method with
  | upload =>
      apply (lcFileNetHanderUpload s).mono
      rw [retry, hmethod]
      decide
  | download =>
      apply (lcFileNetHanderDownload s).mono
      rw [retry, hmethod]
      decide
  | resumUpload =>
      apply (resumTask _ s).mono
      rw [retry, hmethod]
      decide
  | resumDownload =>
      apply (resumTask _ s).mono
      rw [retry, hmethod]
      decide
  | cancel =>
      dsimp only
      rw [lcFileNetHanderCancelTask]
      split
      · refine send_same (f := AWSS3TransferUtilityTask.cancel) ?_ (fun _ => rfl) s
        rintro t ⟨⟩
      · apply refl
  | pause =>
      dsimp only
      rw [lcFileNetHanderPauseTask]
      split
      · refine send_same ?_ AWSS3TransferUtilityTask.completionHandler_suspend s
        intro t ht
        rw [← live_suspend]
        apply ht
      · apply refl

/-- What goes on costs less than it counted while it was waiting. -/
theorem goOn (c : Continuation) (url : Option String) (error : Option NSError) (s : System) :
  Costs c.request (c.work s.requests - 1) s (LCS3Hander.goOn (quiet md5) url error c s)
  := by
  cases c with
  | replicate q source key =>
      cases error with
      | some error =>
          apply (copyCallback _ s).mono
          rw [Continuation.work, Continuation.request]
          omega
      | none =>
          have hcopied : Costs q 0 s (replicateObject source.fileKey key s) := by
            unfold replicateObject
            split
            · exact of_hander rfl rfl (Nat.le_refl _)
            · apply refl
          apply (hcopied.trans (wait (.copyURL q source) _)).mono
          rw [hcopied.requests, Continuation.work, Continuation.work]
          omega
  | copyURL q source =>
      apply ((setTaskOf q _ s).trans (copyCallback error _)).mono
      rw [(setTaskOf (q := q) q _ s).requests, Continuation.work, Continuation.request]
      omega
  | copyItem q source =>
      rw [LCS3Hander.goOn]
      unfold copyItemAtPath
      split
      · have hthrown : Costs q 0 s (throwException s) := of_hander rfl rfl (Nat.le_refl _)
        apply hthrown.mono
        omega
      · apply (wait (.copied q source _) s).mono
        rw [Continuation.work, Continuation.work]
        omega
      · next path _ =>
          have hcopied : Costs q 0 s (LCS3Hander.copyItem source.filePath path s) := by
            unfold LCS3Hander.copyItem
            split
            · exact of_eq rfl rfl rfl rfl
            · apply refl
          apply (hcopied.trans (wait (.copied q source none) _)).mono
          rw [hcopied.requests, Continuation.work, Continuation.work]
          omega
  | copied q source copyError =>
      have hmd5 : Costs q 0 s
          (if copyError.isSome then s else LCS3Hander.setMd5 (quiet md5) q s) := by
        split
        · apply refl
        · apply setMd5
      have hset := hmd5.trans (setTaskOf q (fun task => { task with
        finishedSize := source.finishedSize
        totalSize := source.totalSize }) _)
      apply (hset.trans (copyCallback copyError _)).mono
      rw [hset.requests, Continuation.work]
      omega
  | start q kind key path =>
      cases error with
      | some error =>
          apply (finishCallback _ s).mono
          rw [Continuation.work, Continuation.request]
          omega
      | none =>
          have hstarted : Costs q (2 + retry s.requests q) s (s.mapHander (fun h => { h with
              transfers := h.transfers.alloc
                { kind, key, path, completionHandler := some ⟨q, true⟩ } })) := by
            refine of_hander rfl rfl ?_
            have htotal := Heap.total_alloc
              (fun _ t => AWSS3TransferUtilityTask.work s.requests t)
              { kind, key, path, completionHandler := some ⟨q, true⟩ } s.transfers
            have hnew : AWSS3TransferUtilityTask.work s.requests
                { kind, key, path, completionHandler := some ⟨q, true⟩ }
                = 2 + retry s.requests q := rfl
            rw [Hander.work, Hander.work]
            simp only [System.toHander_mapHander]
            rw [htotal, hnew]
            omega
          apply (hstarted.trans (wait (.started q s.transfers.next) _)).mono
          rw [Continuation.work, Continuation.work]
          omega
  | started q r => apply setObject q r s
  | url q =>
      apply ((setTaskOf q _ s).trans (finishCallback error _)).mono
      rw [(setTaskOf (q := q) q _ s).requests, Continuation.work, Continuation.request]
      omega

theorem progressBlock (r : TransferRef) (completed total : Int)
    (hr : ∀ handler ∈ (s.transfers.cell r).completionHandler, handler.request = q) :
  Costs q 0 s (LCS3Hander.progressBlock (quiet md5) r completed total s)
  := by
  rw [LCS3Hander.progressBlock]
  split
  · next handler hhandler =>
      obtain rfl := hr handler hhandler
      apply (setTaskOf handler.request _ s).trans (progressCallback _)
  · apply refl

end Costs

/-! ### Steps -/

section

variable {md5 : Bytes → String} {s : System}

theorem HanderMethod.work_pos (method : HanderMethod) :
  0 < method.work
  := by
  cases method with
  | _ => decide

theorem Continuation.work_pos (requests : Heap Request) (c : Continuation) :
  0 < c.work requests
  := by
  cases c with
  | started q r => apply Nat.zero_lt_one
  | _ =>
      rw [work]
      omega

/-- What waits is as much work as its request says. -/
theorem Continuation.work_congr {requests requests' : Heap Request} {c : Continuation}
    (hretry : retry requests' c.request = retry requests c.request) :
  c.work requests' = c.work requests
  := by
  cases c with
  | started q r => rfl
  | _ =>
      rw [request] at hretry
      rw [work, work, hretry]

/-- What waits no more is no more work. -/
theorem work_dropWaiting {i : Nat} {c : Continuation} (hc : s.waiting[i]? = some c) :
  (s.dropWaiting i).work + c.work s.requests = s.work
  := by
  obtain ⟨hi, hget⟩ := List.getElem?_eq_some_iff.mp hc
  have hsum : (s.waiting.map (Continuation.work s.requests)).sum
      = ((s.waiting.eraseIdx i).map (Continuation.work s.requests)).sum + c.work s.requests := by
    have hperm := (List.getElem_cons_eraseIdx_perm hi).map (Continuation.work s.requests)
    rw [← hperm.sum_eq, List.map_cons, List.sum_cons, hget]
    omega
  have hdropped : (s.dropWaiting i).work = s.toCore.work (unmade s.requests)
      + (((s.waiting.eraseIdx i).map (Continuation.work s.requests)).sum
        + s.transfers.total (fun _ t => t.work s.requests)) := rfl
  rw [hdropped, System.work, Hander.work, hsum]
  omega

/-- What is yet to be called after a request that is a call of the service. -/
theorem unmade_alloc (requests : Heap Request) (r : Request) (c : CallRef) :
  unmade (requests.alloc r) c = (unmade requests c && decide (r.call ≠ some c))
  := by
  have hold : (List.range requests.next).all (fun q => ((requests.alloc r).cell q).call ≠ some c)
      = unmade requests c := by
    rw [unmade, Bool.eq_iff_iff, List.all_eq_true, List.all_eq_true]
    apply forall₂_congr
    intro q hq
    rw [Heap.cell_alloc_of_lt r (List.mem_range.mp hq)]
  rw [unmade, Heap.next_alloc, List.range_succ, List.all_append, hold, List.all_cons, List.all_nil,
    Heap.cell_alloc_next, Bool.and_true]

/-- A new request changes nothing about what waits for others and their transfers. -/
theorem handerWork_addRequest (hactive : ∀ q, Active q s → q < s.requests.next) (r : Request) :
  (s.addRequest r).toHander.work ≤ s.toHander.work
  := by
  have hretry : ∀ q, Active q s → retry (s.requests.alloc r) q = retry s.requests q := by
    intro q hq
    rw [retry, retry, Heap.cell_alloc_of_lt r (hactive q hq)]
  have hwaiting : s.waiting.map (Continuation.work (s.requests.alloc r))
      = s.waiting.map (Continuation.work s.requests) := by
    apply List.map_congr_left
    intro c hc
    apply Continuation.work_congr (hretry _ (Or.inl ⟨c, hc, rfl⟩))
  have htransfers : s.transfers.total (fun _ t => t.work (s.requests.alloc r))
      ≤ s.transfers.total (fun _ t => t.work s.requests) := by
    apply Heap.total_le_total rfl
    intro t _
    rw [AWSS3TransferUtilityTask.work, AWSS3TransferUtilityTask.work]
    cases hhandler : (s.transfers.cell t).completionHandler with
    | none => apply Nat.le_refl
    | some handler =>
        rw [Option.elim_some, Option.elim_some, hretry _ (Or.inr ⟨t, handler, hhandler, rfl⟩)]
  have hadded : (s.addRequest r).toHander.work
      = (s.waiting.map (Continuation.work (s.requests.alloc r))).sum
        + s.transfers.total (fun _ t => t.work (s.requests.alloc r)) := rfl
  rw [hadded, hwaiting]
  apply Nat.add_le_add_left htransfers

/-- A call of the service that is made is no more to be made. -/
theorem work_addRequest (hactive : ∀ q, Active q s → q < s.requests.next) {r : Request}
    {c : CallRef} (hr : r.call = some c) (huncalled : uncalled c s) :
  (s.addRequest r).work + (s.calls.cell c).method.work ≤ s.work
  := by
  rw [uncalled, Bool.and_eq_true, decide_eq_true_iff] at huncalled
  have hunmade : unmade s.requests c = true := huncalled.2
  have hcalls := @Heap.total_add_of_ne HanderCall
    (fun c call => if unmade s.requests c then call.method.work else 0)
    (fun c call => if unmade (s.requests.alloc r) c then call.method.work else 0)
    s.calls s.calls c huncalled.1 rfl (by
      intro c' hne
      have hcall : decide (r.call ≠ some c') = true := by
        rw [decide_eq_true_iff, hr]
        intro heq
        apply hne (Option.some.inj heq).symm
      rw [unmade_alloc, hcall, Bool.and_true])
  have hmade : unmade (s.requests.alloc r) c = false := by
    rw [unmade_alloc, hr]
    simp
  rw [hmade, if_neg Bool.false_ne_true, if_pos hunmade] at hcalls
  have hhander := handerWork_addRequest hactive r
  have hadded : (s.addRequest r).work
      = s.toCore.work (unmade (s.requests.alloc r)) + (s.addRequest r).toHander.work := rfl
  rw [hadded, System.work, Core.work, Core.work]
  omega

/-- A request that is no call of the service makes none. -/
theorem work_addRequest_of_none (hactive : ∀ q, Active q s → q < s.requests.next) {r : Request}
    (hr : r.call = none) :
  (s.addRequest r).work ≤ s.work
  := by
  have hunmade : unmade (s.requests.alloc r) = unmade s.requests := by
    funext c
    rw [unmade_alloc, hr]
    simp
  have hadded : (s.addRequest r).work
      = s.toCore.work (unmade (s.requests.alloc r)) + (s.addRequest r).toHander.work := rfl
  rw [hadded, hunmade]
  apply Nat.add_le_add_left (handerWork_addRequest hactive r)

/-- What is transferred is no work. -/
theorem work_transferred (t : AWSS3TransferUtilityTask) (error : Option NSError) (s : System) :
  let s' := if error.isSome then s else transferred t s
  s'.work = s.work ∧ s'.transfers = s.transfers ∧ s'.requests = s.requests ∧ s'.calls = s.calls
  := by
  dsimp only
  split
  · exact ⟨rfl, rfl, rfl, rfl⟩
  · rw [transferred]
    split
    · split
      · exact ⟨rfl, rfl, rfl, rfl⟩
      · exact ⟨rfl, rfl, rfl, rfl⟩
    · exact ⟨rfl, rfl, rfl, rfl⟩

/-- The work of a transfer that ends is that of its completion handler, and two steps. -/
theorem work_finish {r : TransferRef} (hr : r < s.transfers.next)
    (hlive : (s.transfers.cell r).live) (error : Option NSError) :
  (s.setTransfer r (AWSS3TransferUtilityTask.finish error)).work
      + (2 + (s.transfers.cell r).completionHandler.elim 0
        (fun handler => retry s.requests handler.request)) = s.work
  := by
  have hdead : (AWSS3TransferUtilityTask.finish error (s.transfers.cell r)).work s.requests
      = 0 := by
    cases error with
    | none => rfl
    | some error => rfl
  have htotal := Heap.total_modify (fun _ t => AWSS3TransferUtilityTask.work s.requests t)
    (AWSS3TransferUtilityTask.finish error) hr
  have hset : (s.setTransfer r (AWSS3TransferUtilityTask.finish error)).work
      = s.toCore.work (unmade s.requests)
        + ((s.waiting.map (Continuation.work s.requests)).sum
          + (s.transfers.modify r (AWSS3TransferUtilityTask.finish error)).total
            (fun _ t => t.work s.requests)) := rfl
  have hwork : (s.transfers.cell r).work s.requests
      = 2 + (s.transfers.cell r).completionHandler.elim 0
        (fun handler => retry s.requests handler.request) := by
    rw [AWSS3TransferUtilityTask.work, if_pos hlive]
  rw [hset, System.work, Hander.work, ← hwork]
  omega

/-- A transfer that ends is less work than one that may end. -/
theorem work_endTransfer (hplaced : ∀ q, Active q s → Placed q s) {r : TransferRef}
    {error : Option NSError} (hmay : mayEnd r error s) :
  (endTransfer (quiet md5) r error s).work + 1 ≤ s.work
  := by
  rw [mayEnd, Bool.and_eq_true, Bool.and_eq_true, decide_eq_true_iff] at hmay
  obtain ⟨⟨hr, hlive⟩, -⟩ := hmay
  obtain ⟨hwork, htransfers, hrequests, hcalls⟩ := work_transferred (s.transfers.cell r) error s
  rw [endTransfer]
  generalize (if error.isSome then s else transferred (s.transfers.cell r) s) = s' at *
  rw [← htransfers] at hr hlive
  have hended := work_finish hr hlive error
  have hcell : ((s'.setTransfer r (AWSS3TransferUtilityTask.finish error)).transfers.cell
      r).completionHandler = (s.transfers.cell r).completionHandler := by
    rw [System.cell_setTransfer, if_pos rfl, htransfers]
    rfl
  rw [htransfers] at hended
  cases hhandler : (s.transfers.cell r).completionHandler with
  | none =>
      have hnone : complete (quiet md5) r
          (s'.setTransfer r (AWSS3TransferUtilityTask.finish error))
          = s'.setTransfer r (AWSS3TransferUtilityTask.finish error) := by
        rw [complete, hcell, hhandler]
      rw [hnone]
      omega
  | some handler =>
      rw [hhandler] at hcell hended
      have hcosts := @Costs.complete md5 handler.request
        (s'.setTransfer r (AWSS3TransferUtilityTask.finish error)) r (by
          rw [hcell]
          rintro handler' hhandler'
          obtain rfl := Option.some.inj hhandler'
          rfl)
      have hle := hcosts.work (by
        intro c hc
        have hc' : (s.requests.cell handler.request).call = some c := by
          rw [← hrequests]
          apply hc
        have hcall := hplaced handler.request (Or.inr ⟨r, handler, hhandler, rfl⟩) c hc'
        rw [← hcalls, ← hrequests] at hcall
        apply hcall)
      have hsame : (s'.setTransfer r (AWSS3TransferUtilityTask.finish error)).requests
          = s'.requests := rfl
      rw [hsame] at hle
      rw [Option.elim_some] at hended
      omega

/-- The transfers that the utility has when it starts are suspended. -/
theorem work_loadTransfers (transfers : List TransferRef) (s : System) :
  (loadTransfers transfers s).work ≤ s.work
  := by
  induction transfers generalizing s with
  | nil => apply Nat.le_refl
  | cons r transfers ih =>
      have hsuspended : ((s.send r .suspend AWSS3TransferUtilityTask.suspend).mapHander
          (fun h => { h with taskDic := h.taskDic.insert (h.transfers.cell r).key r })).work
          ≤ s.work + 0 := by
        refine System.work_le_of_hander rfl rfl ?_
        refine Hander.work_modify (h := s.toHander) (r := r)
          (f := AWSS3TransferUtilityTask.suspend) (n := 0) ?_
        rw [AWSS3TransferUtilityTask.work_congr (live_suspend _)
          (AWSS3TransferUtilityTask.completionHandler_suspend _)]
        apply Nat.le_refl
      apply Nat.le_trans (ih _) hsuspended

/-- The work that the event adds at most, by what it asks the service or the handler for. -/
def HanderEvent.price (s : System) : HanderEvent → Nat
  | .service e => e.price s.toState
  | .request method _ => method.work
  | _ => 0

/-- In the event the system does something that it has to do. -/
def HanderEvent.moves (s : System) : HanderEvent → Bool
  | .service e => e.moves s.toState
  | .call r => uncalled r s
  | .goOn i _ error => s.waiting[i]?.any (mayGoOn error s)
  | .ends r error => mayEnd r error s
  | _ => false

/-- The next process has the transfers to wait for, without their completion handlers. -/
theorem work_restart :
  (System.step (quiet md5) s (.service .restart)).work ≤ s.work
  := by
  have htransfers : (System.initial s.db s.disk s.transfers s.bucket).transfers.total
      (fun _ t => t.work Heap.empty) ≤ s.transfers.total (fun _ t => t.work s.requests) := by
    refine Heap.total_le_total rfl ?_
    intro r _
    exact AWSS3TransferUtilityTask.work_completionHandler s.requests (s.transfers.cell r) none
  have hstart : (System.step (quiet md5) s (.service .restart)).work
      = 0 + (0 + (System.initial s.db s.disk s.transfers s.bucket).transfers.total
        (fun _ t => t.work Heap.empty)) := rfl
  rw [hstart, System.work, Hander.work]
  omega

/-- The handler is called for less work than it counted that the call was to be made. -/
theorem work_call (hfounded : Founded s) (hanswering : Answering s) {c : CallRef}
    (huncalled : uncalled c s) :
  (System.step (quiet md5) s (.call c)).work + 1 ≤ s.work
  := by
  obtain ⟨r, hr, hmethod, hmakes, hstep⟩ : ∃ r : Request, r.call = some c ∧
      r.method = (s.calls.cell c).method ∧ Makes s r (.call c) ∧
        System.step (quiet md5) s (.call c) = request (quiet md5) r s := by
    refine ⟨⟨(s.calls.cell c).method, s.taskOf (s.calls.cell c).op, some c⟩, rfl, rfl, ?_, ?_⟩
    · apply if_pos huncalled
    · rw [System.step, if_pos huncalled]
  have hadded := work_addRequest (fun q hq => (hfounded.active q hq).1) hr huncalled
  have hcosts := (@Costs.callMethod md5 s.requests.next (s.addRequest r)).work
    ((hanswering.addRequest hmakes).call _ (Nat.lt_succ_self _))
  have hcell : (s.addRequest r).requests.cell s.requests.next = r := Heap.cell_alloc_next _ _
  have hpos := (s.calls.cell c).method.work_pos
  rw [hcell, hmethod] at hcosts
  rw [hstep, request]
  omega

/-- Somebody else calls a method of the handler. -/
theorem work_request (hactive : ∀ q, Active q s → q < s.requests.next) {r : Request}
    (hr : r.call = none) :
  (request (quiet md5) r s).work ≤ s.work + r.method.work
  := by
  have hadded := work_addRequest_of_none hactive hr
  have hcell : (s.addRequest r).requests.cell s.requests.next = r := Heap.cell_alloc_next _ _
  have hcosts := (@Costs.callMethod md5 s.requests.next (s.addRequest r)).work (by
    intro c hc
    rw [hcell, hr] at hc
    cases hc)
  rw [hcell] at hcosts
  rw [request]
  omega

/-- What goes on is less work than what waits. -/
theorem work_goOn (hplaced : ∀ q, Active q s → Placed q s) {i : Nat} {c : Continuation}
    (hc : s.waiting[i]? = some c) (url : Option String) (error : Option NSError) :
  (goOn (quiet md5) url error c (s.dropWaiting i)).work + 1 ≤ s.work
  := by
  have hactive : Active c.request s := Or.inl ⟨c, List.mem_of_getElem? hc, rfl⟩
  have hle := (@Costs.goOn md5 c url error (s.dropWaiting i)).work (hplaced c.request hactive)
  have hdropped := work_dropWaiting hc
  have hpos := c.work_pos s.requests
  have hrequests : (s.dropWaiting i).requests = s.requests := rfl
  rw [hrequests] at hle
  omega

/-- A progress report is no work. -/
theorem work_progressBlock (hplaced : ∀ q, Active q s → Placed q s) (r : TransferRef)
    (completed total : Int) :
  (LCS3Hander.progressBlock (quiet md5) r completed total s).work ≤ s.work
  := by
  cases hhandler : (s.transfers.cell r).completionHandler with
  | none =>
      have hnone : LCS3Hander.progressBlock (quiet md5) r completed total s = s := by
        rw [LCS3Hander.progressBlock, hhandler]
      apply Nat.le_of_eq (congrArg System.work hnone)
  | some handler =>
      have hcosts := @Costs.progressBlock md5 handler.request s r completed total (by
        rw [hhandler]
        rintro handler' hhandler'
        obtain rfl := Option.some.inj hhandler'
        rfl)
      apply hcosts.work (hplaced _ (Or.inr ⟨r, handler, hhandler, rfl⟩))

/-- A step of the system adds at most its price to the work, and takes some off if it moves. -/
theorem System.work_step (hfounded : Founded s) (hanswering : Answering s) (e : HanderEvent) :
  (System.step (quiet md5) s e).work + (e.moves s).toNat ≤ s.work + e.price s
  := by
  have hplaced : ∀ q, Active q s → Placed q s :=
    fun q hq => hanswering.call q (hfounded.active q hq).1
  -- an event in which nothing happens
  have hstill : e.moves s = false → System.step (quiet md5) s e = s →
      (System.step (quiet md5) s e).work + (e.moves s).toNat ≤ s.work + e.price s := by
    intro hmoves heq
    rw [hmoves, heq]
    apply Nat.le_add_right
  cases e with
  | service e =>
      have hservice : ∀ e : Event, (∀ r error, e ≠ .finish r error) →
          (s.mapState (fun s => LCCFileService.step (quiet md5) s e)).work
            + (e.moves s.toState).toNat ≤ s.work + e.price s.toState := by
        intro e hfinish
        have hle := @LCCFileService.work_step md5 s.toState e hfinish (unmade s.requests)
        rw [System.work, System.work]
        simp only [toState_mapState, toHander_mapState]
        omega
      cases e with
      | restart => apply work_restart
      | progress r => apply Nat.le_refl
      | finish r error => apply Nat.le_refl
      | _ => exact hservice _ (by rintro r error ⟨⟩)
  | call r =>
      by_cases huncalled : uncalled r s
      · rw [HanderEvent.moves, huncalled]
        apply work_call hfounded hanswering huncalled
      · apply hstill
        · apply Bool.eq_false_iff.mpr huncalled
        · rw [System.step, if_neg huncalled]
  | request method task =>
      rw [System.step]
      split
      · exact work_request (fun q hq => (hfounded.active q hq).1) (r := ⟨method, task, none⟩) rfl
      · apply Nat.le_add_right
  | goOn i url error =>
      cases hc : s.waiting[i]? with
      | none =>
          apply hstill
          · rw [HanderEvent.moves, hc]
            rfl
          · simp only [System.step, hc]
      | some c =>
          by_cases hmay : mayGoOn error s c
          · have hmoves : (HanderEvent.goOn i url error).moves s = true := by
              rw [HanderEvent.moves, hc]
              apply hmay
            simp only [hmoves, System.step, hc, hmay, if_true]
            apply work_goOn hplaced hc
          · apply hstill
            · rw [HanderEvent.moves, hc]
              simpa using hmay
            · simp only [System.step, hc, if_neg hmay]
  | ends r error =>
      by_cases hmay : mayEnd r error s
      · rw [HanderEvent.moves, hmay, System.step, if_pos hmay]
        apply work_endTransfer hplaced hmay
      · apply hstill
        · apply Bool.eq_false_iff.mpr hmay
        · rw [System.step, if_neg hmay]
  | body r body =>
      rw [System.step]
      split
      · apply Nat.le_refl
      · apply Nat.le_refl
  | progress r completed total =>
      rw [System.step]
      split
      · apply work_progressBlock hplaced
      · apply Nat.le_refl
  | loadHistory uploadTask multiPartUploadTask downloadTask =>
      rw [System.step]
      split
      · apply Nat.le_trans (work_loadTransfers downloadTask _)
        apply Nat.le_trans (work_loadTransfers multiPartUploadTask _)
        apply work_loadTransfers
      · apply Nat.le_refl

/-! ### Rest -/

/-- There is nothing that the system has to do. -/
def AtRest (s : System) : Prop := ∀ e : HanderEvent, e.moves s = false

/-- The operation waits for the answer to a call for which a transfer is kept that has not ended,
but may not end any more. -/
def Abandoned (o : OpRef) (s : System) : Prop :=
  ∃ c < s.calls.next, (s.calls.cell c).op = o ∧ (s.calls.cell c).answered = false ∧
    ∃ q < s.requests.next, (s.requests.cell q).call = some c ∧
      ∃ r < s.transfers.next, (s.transfers.cell r).heldBy q ∧ (s.transfers.cell r).ended = false ∧
        (s.transfers.cell r).live = false

/-- What waits may go on in some way. -/
theorem exists_mayGoOn (c : Continuation) :
  ∃ error, mayGoOn error s c = true
  := by
  cases c with
  | copyItem q source =>
      cases hpath : (s.taskOfRequest q).filePath with
      | none =>
          use none
          rw [mayGoOn, hpath]
          rfl
      | some path =>
          use some {}
          rw [mayGoOn, hpath]
          rfl
  | _ => exact ⟨some {}, rfl⟩

/-- At rest all operations have started, nobody waits for a method of the handler to return, all
calls are made, nothing waits in the handler, and no transfer may end. -/
theorem atRest_iff :
  AtRest s ↔ (∀ o < s.ops.next, (s.ops.cell o).started) ∧ s.pending = [] ∧
    (∀ c < s.calls.next, uncalled c s = false) ∧ s.waiting = [] ∧
      ∀ r < s.transfers.next, (s.transfers.cell r).live = false
  := by
  constructor
  · intro h
    refine ⟨?_, ?_, ?_, ?_, ?_⟩
    · intro o ho
      have hmoves := h (.service (.opStart o))
      simpa [HanderEvent.moves, Event.moves, ho] using hmoves
    · have hmoves := h (.service (.returns 0))
      simpa [HanderEvent.moves, Event.moves] using hmoves
    · exact fun c _ => h (.call c)
    · cases hwaiting : s.waiting with
      | nil => rfl
      | cons c waiting =>
          obtain ⟨error, hmay⟩ := @exists_mayGoOn s c
          have hmoves := h (.goOn 0 none error)
          rw [HanderEvent.moves, hwaiting] at hmoves
          apply absurd hmay (Bool.eq_false_iff.mp hmoves)
    · intro r hr
      have hmoves := h (.ends r (some {}))
      simpa [HanderEvent.moves, mayEnd, hr] using hmoves
  · rintro ⟨hops, hpending, hcalls, hwaiting, htransfers⟩ e
    cases e with
    | service e =>
        cases e with
        | opStart o => simpa [HanderEvent.moves, Event.moves] using hops o
        | returns i => simp [HanderEvent.moves, Event.moves, hpending]
        | _ => rfl
    | call c =>
        by_cases hc : c < s.calls.next
        · apply hcalls c hc
        · simp [HanderEvent.moves, uncalled, hc]
    | goOn i url error => simp [HanderEvent.moves, hwaiting]
    | ends r error =>
        by_cases hr : r < s.transfers.next
        · simp [HanderEvent.moves, mayEnd, htransfers r hr]
        · simp [HanderEvent.moves, mayEnd, hr]
    | _ => rfl

/-- At rest the operations that are attended to are abandoned. -/
theorem AtRest.abandoned (h : AtRest s) {o : OpRef} (hattended : Attended o s) :
  Abandoned o s
  := by
  obtain ⟨-, -, hcalls, hwaiting, htransfers⟩ := atRest_iff.mp h
  obtain ⟨c, hc, ho, -, hanswered, huncalled | ⟨q, hq, hcall, howed⟩⟩ := hattended
  · rw [hcalls c hc] at huncalled
    cases huncalled
  · obtain ⟨c', hc', -⟩ | ⟨r, hr, hheld, hended⟩ := howed
    · rw [hwaiting] at hc'
      cases hc'
    · exact ⟨c, hc, ho, hanswered, q, hq, hcall, r, hr, hheld, hended, htransfers r hr⟩

end

/-! ### Runs -/

/-- The work of the system when the process starts is that of the transfers. -/
theorem work_initial_le (db : TaskTable) (disk : Disk String Bytes)
    (transfers : Heap AWSS3TransferUtilityTask) (bucket : Disk String Bytes) :
  (System.initial db disk transfers bucket).work ≤ 2 * transfers.next
  := by
  have hwork : (System.initial db disk transfers bucket).work
      = 0 + (0 + (System.initial db disk transfers bucket).transfers.total
        (fun _ t => t.work Heap.empty)) := rfl
  have hnext : (System.initial db disk transfers bucket).transfers.next = transfers.next := rfl
  have htotal : (System.initial db disk transfers bucket).transfers.total
      (fun _ t => t.work Heap.empty) ≤ transfers.next * 2 := by
    rw [← hnext]
    apply Heap.total_le_mul
    intro r _
    rw [AWSS3TransferUtilityTask.work]
    split
    · apply Nat.le_refl
    · apply Nat.zero_le
  omega

/-- In every run the service, the handler and S3 move at most twice for every transfer that was
there before, and as often as what they are asked for is worth: a start or a resumption of a task
18 times, a pause or a cancellation twice, and so is the pause of each of all tasks. -/
theorem total_moves_le (md5 : Bytes → String) (db : TaskTable) (disk : Disk String Bytes)
    (transfers : Heap AWSS3TransferUtilityTask) (bucket : Disk String Bytes)
    (es : List HanderEvent) :
  Run.total (System.step (quiet md5)) (fun s e => (e.moves s).toNat)
      (System.initial db disk transfers bucket) es
    ≤ 2 * transfers.next + Run.total (System.step (quiet md5)) (fun s e => e.price s)
      (System.initial db disk transfers bucket) es
  := by
  have hstep : ∀ s e, Founded s ∧ Answering s →
      (Founded (System.step (quiet md5) s e) ∧ Answering (System.step (quiet md5) s e)) ∧
        (System.step (quiet md5) s e).work + (e.moves s).toNat ≤ s.work + e.price s := by
    rintro s e ⟨hfounded, hanswering⟩
    exact ⟨⟨hfounded.step e, hanswering.does (hfounded.does e)⟩,
      System.work_step hfounded hanswering e⟩
  have htotal := @Run.total_add_le System HanderEvent (System.step (quiet md5))
    (fun s => Founded s ∧ Answering s) (fun s e => (e.moves s).toNat) (fun s e => e.price s)
    System.work hstep (System.initial db disk transfers bucket)
    ⟨Founded.initial db disk transfers bucket, Answering.initial db disk transfers bucket⟩ es
  have hinitial := work_initial_le db disk transfers bucket
  omega

/-- Where the operations are attended to and the system has come to rest, every operation has
started, and is cancelled or finished, or is abandoned with its transfer. -/
theorem settled_of_atRest {md5 : Bytes → String} {db : TaskTable} {disk : Disk String Bytes}
    {transfers : Heap AWSS3TransferUtilityTask} {bucket : Disk String Bytes} {es : List HanderEvent}
    (hes : Run.Along (System.step (quiet md5)) Attends (System.initial db disk transfers bucket) es)
    (hrest : AtRest (Run.final (System.step (quiet md5)) (System.initial db disk transfers bucket)
      es)) :
  let s := Run.final (System.step (quiet md5)) (System.initial db disk transfers bucket) es
  ∀ o < s.ops.next, (s.ops.cell o).started ∧
    ((s.ops.cell o).cancelled ∨ (s.ops.cell o).finished ∨ Abandoned o s)
  := by
  intro s o ho
  have hattending := (Run.throughout_of_step
    (fun s e (h : Attending s) hattends => @Attending.step md5 s h e hattends)
    (Attending.initial db disk transfers bucket) hes).final
  have hstarted := (atRest_iff.mp hrest).1 o ho
  refine ⟨hstarted, ?_⟩
  by_cases hcancelled : (s.ops.cell o).cancelled
  · apply Or.inl hcancelled
  · right
    obtain hfinished | hattended := hattending.attended ho hstarted
      (Bool.eq_false_iff.mpr hcancelled)
    · apply Or.inl hfinished
    · apply Or.inr (hrest.abandoned hattended)

/-- A download is started, and somebody else asks the handler to cancel its transfer. -/
def cancelledTransfer : List HanderEvent :=
  [.service (.create { taskId := "k", fileKey := "f", filePath := "/d", type := .download }),
    .service (.addHander 0), .service (.startTask 0), .service (.opStart 0), .call 0,
    .goOn 0 none none, .service (.returns 0), .goOn 0 none none, .request .cancel 0]

/-- The system comes to rest with the download. -/
theorem settled_cancelledTransfer :
  let s := Run.final (System.step (quiet (fun _ => "")))
    (System.initial ∅ (fun _ => none) .empty (fun _ => some [])) cancelledTransfer
  ∀ o < s.ops.next, (s.ops.cell o).started ∧
    ((s.ops.cell o).cancelled ∨ (s.ops.cell o).finished ∨ Abandoned o s)
  := by
  apply settled_of_atRest
  · refine ⟨?_, ?_, ?_, ?_, ?_, ?_, ?_, ?_, ?_, trivial⟩
    all_goals apply Attends.of_not_resumes <;> decide +kernel
  · apply atRest_iff.mpr
    decide +kernel

end LCCFileService
