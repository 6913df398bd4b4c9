import LCCFileService.AWSS3.Working

/-!
# Restored transfers

After a restart `loadHistoryAWSTask` enters the transfers the utility still has into
`taskDic`, by their keys.  The methods that resume, cancel and pause a transfer look it up
by the `taskId` of a task.  As long as no transfer is started, they act on the transfer
with the `fileKey` of the task exactly if this is also its `taskId`.
-/

namespace LCCFileService

open LCS3Hander

/-! ### Restored transfers -/

/-- A change of a transfer that keeps its key and its kind, and installs no completion handler
that removes it from `taskDic`. -/
structure Tame (f : AWSS3TransferUtilityTask → AWSS3TransferUtilityTask) : Prop where
  key : ∀ t, (f t).key = t.key
  kind : ∀ t, (f t).kind = t.kind
  handler : ∀ t, ∀ handler ∈ (f t).completionHandler,
    handler ∈ t.completionHandler ∨ handler.removes = false

namespace Tame

theorem suspend : Tame AWSS3TransferUtilityTask.suspend
  := by
  constructor
  · intro t
    rw [AWSS3TransferUtilityTask.suspend]
    split
    · rfl
    · rfl
  · intro t
    rw [AWSS3TransferUtilityTask.suspend]
    split
    · rfl
    · rfl
  · intro t handler hmem
    rw [AWSS3TransferUtilityTask.completionHandler_suspend] at hmem
    apply Or.inl hmem

theorem resume : Tame AWSS3TransferUtilityTask.resume
  := by
  constructor
  · intro t
    rw [AWSS3TransferUtilityTask.resume]
    split
    · rfl
    · rfl
  · intro t
    rw [AWSS3TransferUtilityTask.resume]
    split
    · rfl
    · rfl
  · intro t handler hmem
    rw [AWSS3TransferUtilityTask.completionHandler_resume] at hmem
    apply Or.inl hmem

theorem cancel : Tame AWSS3TransferUtilityTask.cancel
  := ⟨fun _ => rfl, fun _ => rfl, fun _ _ hmem => Or.inl hmem⟩

theorem finish (error : Option NSError) : Tame (AWSS3TransferUtilityTask.finish error)
  := ⟨fun _ => rfl, fun _ => rfl, fun _ _ hmem => Or.inl hmem⟩

/-- Installing the completion handler of a resumption. -/
theorem install (q : RequestRef) :
  Tame (fun t => { t with completionHandler := some ⟨q, false⟩ })
  := by
  refine ⟨fun _ => rfl, fun _ => rfl, ?_⟩
  rintro t handler ⟨⟩
  apply Or.inr rfl

/-- Releasing a completion handler. -/
theorem release : Tame (fun t => { t with completionHandler := none })
  := by
  refine ⟨fun _ => rfl, fun _ => rfl, ?_⟩
  rintro t handler ⟨⟩

end Tame

/-- The transfers `rs` of those the process started with are the entries of `taskDic`, at their
keys, and nothing that happens to transfers is going to change it. -/
structure Restored (transfers : Heap AWSS3TransferUtilityTask) (rs : List TransferRef)
    (s : System) : Prop where
  key : ∀ r, (s.transfers.cell r).key = (transfers.cell r).key
  kind : ∀ r, (s.transfers.cell r).kind = (transfers.cell r).kind
  taskDic : ∀ k r, s.taskDic.lookup k = some r ↔ r ∈ rs ∧ (transfers.cell r).key = k
  handlers : ∀ r, ∀ handler ∈ (s.transfers.cell r).completionHandler, handler.removes = false
  started : ∀ q r, .started q r ∉ s.waiting

namespace Restored

variable {E : Env} {transfers : Heap AWSS3TransferUtilityTask} {rs : List TransferRef}
  {s s' : System}

theorem still (h : Restored transfers rs s) (hs : Still s s') :
  Restored transfers rs s'
  := by
  constructor
  · rw [hs.transfers]
    apply h.key
  · rw [hs.transfers]
    apply h.kind
  · rw [hs.taskDic]
    apply h.taskDic
  · rw [hs.transfers]
    apply h.handlers
  · intro q r hmem
    apply h.started q r (hs.started q r hmem)

theorem setTransfer (h : Restored transfers rs s) (r : TransferRef)
    {f : AWSS3TransferUtilityTask → AWSS3TransferUtilityTask} (hf : Tame f) :
  Restored transfers rs (s.setTransfer r f)
  := by
  have hcell := System.cell_setTransfer r f s
  constructor
  · intro r'
    rw [hcell, ← h.key r']
    split
    · next hr =>
        subst hr
        apply hf.key
    · rfl
  · intro r'
    rw [hcell, ← h.kind r']
    split
    · next hr =>
        subst hr
        apply hf.kind
    · rfl
  · apply h.taskDic
  · intro r' handler hmem
    rw [hcell] at hmem
    split at hmem
    · rcases hf.handler _ handler hmem with hmem | hremoves
      · apply h.handlers r handler hmem
      · apply hremoves
    · apply h.handlers r' handler hmem
  · apply h.started

theorem send (h : Restored transfers rs s) (r : TransferRef) (message : TransferMessage)
    {f : AWSS3TransferUtilityTask → AWSS3TransferUtilityTask} (hf : Tame f) :
  Restored transfers rs (s.send r message f)
  := by
  obtain ⟨hkey, hkind, htaskDic, hhandlers, hstarted⟩ := h.setTransfer r hf
  exact ⟨hkey, hkind, htaskDic, hhandlers, hstarted⟩

theorem complete (h : Restored transfers rs s) (r : TransferRef) :
  Restored transfers rs (LCS3Hander.complete E r s)
  := by
  simp only [LCS3Hander.complete]
  split
  · next handler hhandler =>
      have hremoves := h.handlers r handler hhandler
      rw [runCompletionHandler, hremoves]
      apply setTransfer _ r Tame.release
      apply h.still (Works.answerCompletion _ _ s).still
  · apply h

theorem setCompletionHandler (h : Restored transfers rs s) (r : TransferRef) (q : RequestRef) :
  Restored transfers rs (LCS3Hander.setCompletionHandler E r ⟨q, false⟩ s)
  := by
  have hsend := h.send r .setCompletionHandler (Tame.install q)
  rw [LCS3Hander.setCompletionHandler]
  split
  · apply hsend.complete r
  · apply hsend

theorem resumTask (h : Restored transfers rs s) (takes : TransferKind → Bool) (q : RequestRef) :
  Restored transfers rs (LCS3Hander.resumTask E takes q s)
  := by
  rw [LCS3Hander.resumTask]
  split
  · next r _ =>
      split
      · apply (h.setCompletionHandler r q).send r .resume Tame.resume
      · apply h
  · apply h.still (Still.finishCallback q (some {}) s)

theorem request (h : Restored transfers rs s) (r : Request) :
  Restored transfers rs (LCS3Hander.request E r s)
  := by
  have hadd : Restored transfers rs (s.addRequest r) :=
    h.still (Still.same rfl rfl rfl rfl)
  rw [LCS3Hander.request, callMethod]
  split
  · apply hadd.still (Works.of_replies (Replies.lcFileNetHanderUpload _)).still
  · apply hadd.still (Works.of_replies (Replies.lcFileNetHanderDownload _)).still
  · apply hadd.resumTask
  · apply hadd.resumTask
  · rw [lcFileNetHanderCancelTask]
    split
    · apply hadd.send _ .cancel Tame.cancel
    · apply hadd
  · rw [lcFileNetHanderPauseTask]
    split
    · apply hadd.send _ .suspend Tame.suspend
    · apply hadd

theorem endTransfer (h : Restored transfers rs s) (r : TransferRef) (error : Option NSError) :
  Restored transfers rs (LCS3Hander.endTransfer E r error s)
  := by
  rw [LCS3Hander.endTransfer]
  apply complete
  apply setTransfer _ r (Tame.finish error)
  split
  · apply h
  · apply h.still (Still.transferred _ s)

/-! ### Loading the history -/

/-- Entering a transfer whose key no entry has. -/
theorem enter (h : Restored transfers rs s) {r : TransferRef}
    (hnew : ∀ r' ∈ rs, (transfers.cell r').key ≠ (transfers.cell r).key) :
  Restored transfers (rs ++ [r]) (s.mapHander
    (fun h => { h with taskDic := h.taskDic.insert (h.transfers.cell r).key r }))
  := by
  refine ⟨h.key, h.kind, ?_, h.handlers, h.started⟩
  intro k r'
  rw [System.toHander_mapHander, Dictionary.lookup_insert, h.key r, List.mem_append,
    List.mem_singleton]
  split
  · next hk =>
      rw [Option.some.injEq]
      constructor
      · rintro rfl
        exact ⟨Or.inr rfl, hk.symm⟩
      · rintro ⟨hmem | hr, hkey⟩
        · apply absurd (hkey.trans hk) (hnew r' hmem)
        · apply hr.symm
  · next hk =>
      rw [h.taskDic k r']
      constructor
      · rintro ⟨hmem, hkey⟩
        exact ⟨Or.inl hmem, hkey⟩
      · rintro ⟨hmem | rfl, hkey⟩
        · exact ⟨hmem, hkey⟩
        · apply absurd hkey.symm hk

theorem loadTransfers {rs' : List TransferRef} (h : Restored transfers rs s)
    (hkeys : ((rs ++ rs').map (fun r => (transfers.cell r).key)).Nodup) :
  Restored transfers (rs ++ rs') (LCS3Hander.loadTransfers rs' s)
  := by
  induction rs' generalizing rs s with
  | nil =>
      rw [List.append_nil]
      apply h
  | cons r rs' ih =>
      rw [List.append_cons] at hkeys
      have hnew : ∀ r' ∈ rs, (transfers.cell r').key ≠ (transfers.cell r).key := by
        intro r' hmem heq
        rw [List.map_append, List.map_append, List.append_assoc, List.nodup_append] at hkeys
        apply hkeys.2.2 _ (List.mem_map_of_mem hmem) _ _ heq
        apply List.mem_append_left
        apply List.mem_singleton_self
      rw [List.append_cons]
      apply ih ((h.send r .suspend Tame.suspend).enter hnew) hkeys

/-- Only a transfer that is started, and loading the history, are going to change `taskDic`. -/
def StartsNothing (s : System) : HanderEvent → Prop
  | .service .restart | .loadHistory _ _ _ => False
  | .goOn i _ _ => ∀ q kind key path, s.waiting[i]? ≠ some (.start q kind key path)
  | _ => True

theorem step (h : Restored transfers rs s) {e : HanderEvent} (he : StartsNothing s e) :
  Restored transfers rs (System.step E s e)
  := by
  cases e with
  | service e =>
      cases e with
      | restart => cases he
      | progress r => apply h
      | finish r error => apply h
      | _ => exact h.still (Still.same rfl rfl rfl rfl)
  | call r =>
      rw [System.step]
      split
      · apply h.request
      · apply h
  | request method task =>
      rw [System.step]
      split
      · apply h.request
      · apply h
  | goOn i url error =>
      rw [System.step]
      split
      · next c hc =>
          split
          · have hdrop := h.still (Still.dropWaiting i s)
            apply hdrop.still
            apply (Works.goOn _ _ url error (s.dropWaiting i)).still
            · rintro q kind key path rfl
              apply he q kind key path hc
            · rintro q r rfl
              apply h.started q r (List.mem_of_getElem? hc)
          · apply h
      · apply h
  | ends r error =>
      rw [System.step]
      split
      · apply h.endTransfer
      · apply h
  | body r body =>
      rw [System.step]
      split
      · exact h.still (Still.same rfl rfl rfl rfl)
      · apply h
  | progress r completed total =>
      rw [System.step]
      split
      · rw [progressBlock]
        split
        · apply h.still (Works.progressed completed total s).still
        · apply h
      · apply h
  | loadHistory uploads multiParts downloads => cases he

/-- The transfers that are loaded when the process starts, until another one is started. -/
theorem run {db : TaskTable} {disk bucket : Disk String Bytes}
    {uploadTask multiPartUploadTask downloadTask : List TransferRef}
    (hlisted : ∀ r ∈ uploadTask ++ multiPartUploadTask ++ downloadTask, r < transfers.next)
    (hkeys : ((uploadTask ++ multiPartUploadTask ++ downloadTask).map
      (fun r => (transfers.cell r).key)).Nodup)
    {es : List HanderEvent}
    (hes : Run.Along (System.step E) StartsNothing
      (System.step E (System.initial db disk transfers bucket)
        (.loadHistory uploadTask multiPartUploadTask downloadTask)) es) :
  Restored transfers (uploadTask ++ multiPartUploadTask ++ downloadTask)
    (Run.final (System.step E) (System.initial db disk transfers bucket)
      (.loadHistory uploadTask multiPartUploadTask downloadTask :: es))
  := by
  have hinitial : Restored transfers [] (System.initial db disk transfers bucket) := by
    refine ⟨fun _ => rfl, fun _ => rfl, ?_, ?_, ?_⟩
    · intro k r
      constructor
      · rintro ⟨⟩
      · rintro ⟨hmem, -⟩
        cases hmem
    · rintro r handler ⟨⟩
    · rintro q r ⟨⟩
  have hloaded : Restored transfers (uploadTask ++ multiPartUploadTask ++ downloadTask)
      (System.step E (System.initial db disk transfers bucket)
        (.loadHistory uploadTask multiPartUploadTask downloadTask)) := by
    have hparts : ((uploadTask ++ multiPartUploadTask).map
        (fun r => (transfers.cell r).key)).Nodup := by
      rw [List.map_append] at hkeys
      apply (List.nodup_append.mp hkeys).1
    have hpart : (uploadTask.map (fun r => (transfers.cell r).key)).Nodup := by
      rw [List.map_append] at hparts
      apply (List.nodup_append.mp hparts).1
    have hguard : ∀ r ∈ uploadTask ++ multiPartUploadTask ++ downloadTask,
        r < (System.initial db disk transfers bucket).transfers.next := hlisted
    rw [System.step, if_pos hguard]
    apply ((hinitial.loadTransfers hpart).loadTransfers hparts).loadTransfers hkeys
  apply (Run.throughout_of_step (P := StartsNothing) (fun s e hs he => hs.step he) hloaded
    hes).final

end Restored

/-! ### Acting on a transfer -/

/-- The messages a method sends to the transfer it finds. -/
def HanderMethod.messages : HanderMethod → List TransferMessage
  | .upload | .download => []
  | .resumUpload | .resumDownload => [.setCompletionHandler, .resume]
  | .cancel => [.cancel]
  | .pause => [.suspend]

/-- From `s` to `s'` a call of the method has sent its messages to the transfer and none to any
other, and no other has changed. -/
structure ActsOn (method : HanderMethod) (r : TransferRef) (s s' : System) : Prop where
  sent : s'.sent = s.sent ++ method.messages.map (fun message => (r, message))
  others : ∀ r', r' ≠ r → s'.transfers.cell r' = s.transfers.cell r'

/-- A method that sends messages acts on one transfer only. -/
theorem ActsOn.unique {method : HanderMethod} {r r' : TransferRef} {s s' : System}
    (hmessages : method.messages ≠ []) (h : ActsOn method r s s') (h' : ActsOn method r' s s') :
  r = r'
  := by
  have heq := List.append_cancel_left (h.sent.symm.trans h'.sent)
  cases hmethod : method.messages with
  | nil => apply absurd hmethod hmessages
  | cons message messages =>
      rw [hmethod] at heq
      apply congrArg Prod.fst (List.cons.inj heq).1

section

variable {E : Env} {s : System}

/-- The completion handler of a transfer sends no messages and changes no other transfer. -/
theorem complete_others (r : TransferRef) (s : System) :
  (LCS3Hander.complete E r s).sent = s.sent ∧
    ∀ r', r' ≠ r → (LCS3Hander.complete E r s).transfers.cell r' = s.transfers.cell r'
  := by
  simp only [LCS3Hander.complete]
  split
  · next handler _ =>
      have hanswer := (@Works.answerCompletion E handler.request (s.transfers.cell r).kind
        (s.transfers.cell r).error s).still
      have hrun : (runCompletionHandler E (s.transfers.cell r).kind handler
            (s.transfers.cell r).error s).sent = s.sent ∧
          (runCompletionHandler E (s.transfers.cell r).kind handler
            (s.transfers.cell r).error s).transfers = s.transfers := by
        rw [runCompletionHandler]
        split
        · rw [removeObject]
          split
          · exact ⟨hanswer.sent, hanswer.transfers⟩
          · exact ⟨hanswer.sent, hanswer.transfers⟩
        · exact ⟨hanswer.sent, hanswer.transfers⟩
      refine ⟨hrun.1, ?_⟩
      intro r' hne
      rw [System.setTransfer, System.toHander_mapHander, Heap.cell_modify, if_neg hne, hrun.2]
  · exact ⟨rfl, fun _ _ => rfl⟩

/-- Installing a completion handler sends this message only, and changes no other transfer. -/
theorem setCompletionHandler_others (r : TransferRef) (handler : CompletionHandler)
    (s : System) :
  (LCS3Hander.setCompletionHandler E r handler s).sent
      = s.sent ++ [(r, .setCompletionHandler)] ∧
    ∀ r', r' ≠ r →
      (LCS3Hander.setCompletionHandler E r handler s).transfers.cell r' = s.transfers.cell r'
  := by
  have hsend : ∀ r', r' ≠ r → (s.send r .setCompletionHandler
      (fun t => { t with completionHandler := some handler })).transfers.cell r'
        = s.transfers.cell r' := by
    intro r' hne
    rw [System.cell_send, if_neg hne]
  rw [LCS3Hander.setCompletionHandler]
  split
  · obtain ⟨hsent, hothers⟩ := @complete_others E r (s.send r .setCompletionHandler
      (fun t => { t with completionHandler := some handler }))
    refine ⟨hsent, ?_⟩
    intro r' hne
    apply (hothers r' hne).trans (hsend r' hne)
  · exact ⟨rfl, hsend⟩

/-- A method that finds a transfer, of a kind it takes if it resumes it, acts on it. -/
theorem ActsOn.request {r : Request} {transfer : TransferRef}
    (hmessages : r.method.messages ≠ []) (hentry : entry r s = some transfer)
    (htakes : r.method.resumes → r.method.takes (s.transfers.cell transfer).kind) :
  ActsOn r.method transfer s (LCS3Hander.request E r s)
  := by
  obtain ⟨method, task, call⟩ := r
  have hcell : (s.addRequest ⟨method, task, call⟩).requests.cell s.requests.next
      = ⟨method, task, call⟩ := Heap.cell_alloc_next _ s.requests
  have htask : awsTask s.requests.next (s.addRequest ⟨method, task, call⟩) = some transfer := by
    rw [awsTask, System.taskOfRequest, hcell]
    apply hentry
  have hresum : ∀ takes : TransferKind → Bool, takes (s.transfers.cell transfer).kind →
      ∀ method', method'.messages = [.setCompletionHandler, .resume] →
        ActsOn method' transfer s (LCS3Hander.resumTask E takes s.requests.next
          (s.addRequest ⟨method, task, call⟩)) := by
    intro takes hkind method' hmethod'
    have hkind' : takes ((s.addRequest ⟨method, task, call⟩).transfers.cell transfer).kind :=
      hkind
    obtain ⟨hsent, hset⟩ := @setCompletionHandler_others E transfer ⟨s.requests.next, false⟩
      (s.addRequest ⟨method, task, call⟩)
    rw [LCS3Hander.resumTask, htask]
    simp only [if_pos hkind']
    constructor
    · rw [hmethod']
      rw [System.send, System.toHander_mapHander, System.setTransfer, System.toHander_mapHander,
        hsent]
      apply List.append_assoc _ _ _
    · intro r' hne
      rw [System.cell_send, if_neg hne, hset r' hne]
      rfl
  rw [LCS3Hander.request, callMethod, hcell]
  cases method with
  | upload => apply absurd rfl hmessages
  | download => apply absurd rfl hmessages
  | resumUpload => apply hresum _ (htakes rfl) .resumUpload rfl
  | resumDownload => apply hresum _ (htakes rfl) .resumDownload rfl
  | cancel =>
      simp only [lcFileNetHanderCancelTask, htask]
      refine ⟨rfl, ?_⟩
      intro r' hne
      rw [System.cell_send, if_neg hne]
      rfl
  | pause =>
      simp only [lcFileNetHanderPauseTask, htask]
      refine ⟨rfl, ?_⟩
      intro r' hne
      rw [System.cell_send, if_neg hne]
      rfl

/-- A method that finds no transfer, or one of a kind it does not take, sends no message. -/
theorem sent_request_of_not {r : Request} (hmessages : r.method.messages ≠ [])
    (hentry : ∀ transfer ∈ entry r s,
      ¬ (r.method.resumes → r.method.takes (s.transfers.cell transfer).kind)) :
  (LCS3Hander.request E r s).sent = s.sent
  := by
  obtain ⟨method, task, call⟩ := r
  have hcell : (s.addRequest ⟨method, task, call⟩).requests.cell s.requests.next
      = ⟨method, task, call⟩ := Heap.cell_alloc_next _ s.requests
  have htask : awsTask s.requests.next (s.addRequest ⟨method, task, call⟩)
      = entry ⟨method, task, call⟩ s := by
    rw [awsTask, System.taskOfRequest, hcell]
    rfl
  have hresum : ∀ takes : TransferKind → Bool,
      (∀ transfer ∈ entry ⟨method, task, call⟩ s,
        ¬ takes (s.transfers.cell transfer).kind) →
      (LCS3Hander.resumTask E takes s.requests.next
        (s.addRequest ⟨method, task, call⟩)).sent = s.sent := by
    intro takes hkind
    rw [LCS3Hander.resumTask, htask]
    split
    · next transfer hfound =>
        have hnot : ¬ takes ((s.addRequest ⟨method, task, call⟩).transfers.cell transfer).kind :=
          hkind transfer hfound
        rw [if_neg hnot]
        rfl
    · apply (Still.finishCallback _ _ _).sent
  rw [LCS3Hander.request, callMethod, hcell]
  cases method with
  | upload => apply absurd rfl hmessages
  | download => apply absurd rfl hmessages
  | resumUpload =>
      apply hresum
      intro transfer hfound hkind
      apply hentry transfer hfound (fun _ => hkind)
  | resumDownload =>
      apply hresum
      intro transfer hfound hkind
      apply hentry transfer hfound (fun _ => hkind)
  | cancel =>
      have hnone : entry ⟨.cancel, task, call⟩ s = none := by
        rw [Option.eq_none_iff_forall_ne_some]
        intro transfer hfound
        apply hentry transfer hfound (by rintro ⟨⟩)
      simp only [lcFileNetHanderCancelTask, htask, hnone]
      rfl
  | pause =>
      have hnone : entry ⟨.pause, task, call⟩ s = none := by
        rw [Option.eq_none_iff_forall_ne_some]
        intro transfer hfound
        apply hentry transfer hfound (by rintro ⟨⟩)
      simp only [lcFileNetHanderPauseTask, htask, hnone]
      rfl

end

/-- As long as no transfer is started, a method called for a task with the `fileKey` of a restored
transfer acts on this transfer exactly if the `fileKey` of the task is its `taskId`, and a
resumption is for the kind of the transfer. -/
theorem actsOnRestored_iff (E : Env) (db : TaskTable) (disk : Disk String Bytes)
    (transfers : Heap AWSS3TransferUtilityTask) (bucket : Disk String Bytes)
    (uploadTask multiPartUploadTask downloadTask : List TransferRef)
    (hlisted : ∀ r ∈ uploadTask ++ multiPartUploadTask ++ downloadTask, r < transfers.next)
    (hkeys : ((uploadTask ++ multiPartUploadTask ++ downloadTask).map
      (fun r => (transfers.cell r).key)).Nodup)
    (es : List HanderEvent)
    (hes : Run.Along (System.step E) Restored.StartsNothing
      (System.step E (System.initial db disk transfers bucket)
        (.loadHistory uploadTask multiPartUploadTask downloadTask)) es)
    (s : System)
    (hs : s = Run.final (System.step E) (System.initial db disk transfers bucket)
      (.loadHistory uploadTask multiPartUploadTask downloadTask :: es))
    (transfer : TransferRef)
    (htransfer : transfer ∈ uploadTask ++ multiPartUploadTask ++ downloadTask)
    (r : Request) (hmessages : r.method.messages ≠ [])
    (hfileKey : (s.tasks.cell r.task).fileKey = some (transfers.cell transfer).key) :
  ActsOn r.method transfer s (request E r s) ↔
    (s.tasks.cell r.task).taskId = (s.tasks.cell r.task).fileKey ∧
      (r.method.resumes → r.method.takes (transfers.cell transfer).kind)
  := by
  have hrestored := Restored.run hlisted hkeys hes
  rw [← hs] at hrestored
  rw [hfileKey]
  constructor
  · intro hacts
    have hfound : ∃ transfer' ∈ entry r s,
        (r.method.resumes → r.method.takes (s.transfers.cell transfer').kind) := by
      by_contra hnot
      have hnone := @sent_request_of_not E s r hmessages
        (fun transfer' hentry htakes => hnot ⟨transfer', hentry, htakes⟩)
      have hlength := congrArg List.length (hacts.sent.symm.trans hnone)
      rw [List.length_append, List.length_map] at hlength
      apply hmessages (List.length_eq_zero_iff.mp (by omega))
    obtain ⟨transfer', hentry, htakes⟩ := hfound
    obtain rfl := hacts.unique hmessages (ActsOn.request hmessages hentry htakes)
    obtain ⟨taskId, htaskId, hlookup⟩ := Option.bind_eq_some_iff.mp hentry
    obtain ⟨-, hkey⟩ := (hrestored.taskDic taskId transfer).mp hlookup
    rw [hrestored.kind] at htakes
    refine ⟨?_, htakes⟩
    rw [hkey]
    apply htaskId
  · rintro ⟨htaskId, htakes⟩
    apply ActsOn.request hmessages
    · rw [entry, htaskId]
      apply (hrestored.taskDic _ transfer).mpr ⟨htransfer, rfl⟩
    · rw [hrestored.kind]
      apply htakes

/-- The utility has an upload with the key `f` and one with the key `id`. -/
def twoUploads : Heap AWSS3TransferUtilityTask where
  next := 2
  cell r := { kind := .upload, key := if r = 0 then "f" else "id", path := "/u" }

/-- Rows of an unfinished upload to `f` with the given `taskId`. -/
def uploadRows (taskId : String) : TaskTable :=
  Table.empty _ |>.insertOrReplace
    ⟨{ fileKey := "f", filePath := "/u", md5 := "m", type := .upload, status := .interrupt },
      taskId⟩

/-- The process starts with the two uploads, and the task is read from its row. -/
def uploadsRestored (taskId : String) : System :=
  Run.final (System.step (quiet (fun _ => "m")))
    (System.initial (uploadRows taskId) (fun _ => some []) twoUploads (fun _ => none))
    [.loadHistory [0, 1] [] [], .service (.getTask taskId)]

/-- Pausing a task with the `taskId` `id` that uploads to `f` pauses the upload to `id`. -/
theorem actsOnRestored_other :
  ((uploadsRestored "id").tasks.cell 0).fileKey = some (twoUploads.cell 0).key ∧
    ((uploadsRestored "id").tasks.cell 0).status ≠ .finish ∧
    ActsOn .pause 1 (uploadsRestored "id")
      (request (quiet (fun _ => "m")) ⟨.pause, 0, none⟩ (uploadsRestored "id")) ∧
    ¬ ActsOn .pause 0 (uploadsRestored "id")
      (request (quiet (fun _ => "m")) ⟨.pause, 0, none⟩ (uploadsRestored "id"))
  := by
  have hacts : ActsOn .pause 1 (uploadsRestored "id")
      (request (quiet (fun _ => "m")) ⟨.pause, 0, none⟩ (uploadsRestored "id")) := by
    apply ActsOn.request (r := ⟨.pause, 0, none⟩)
    · decide
    · decide +kernel
    · decide
  refine ⟨by decide +kernel, by decide +kernel, hacts, ?_⟩
  intro hacts'
  apply absurd (hacts.unique (by decide) hacts') (by decide)

/-- Resuming a task with the `taskId` `f` that uploads to `f` resumes its upload. -/
theorem actsOnRestored_own :
  ActsOn .resumUpload 0 (uploadsRestored "f")
      (request (quiet (fun _ => "m")) ⟨.resumUpload, 0, none⟩ (uploadsRestored "f"))
  := by
  apply (actsOnRestored_iff (quiet (fun _ => "m")) (uploadRows "f") (fun _ => some []) twoUploads
    (fun _ => none) [0, 1] [] [] (by decide) (by decide) [.service (.getTask "f")]
    ⟨trivial, trivial⟩ (uploadsRestored "f") rfl 0 (by decide) ⟨.resumUpload, 0, none⟩ (by decide)
    (by decide +kernel)).mpr
  decide +kernel

end LCCFileService
