import LCCFileService.AWSS3.LCS3Hander

/-!
# Answers

The handler calls the finish block of every request once.  A call that is still to come is
promised by a waiting continuation or by the completion handler of a transfer that has not
ended.  Every step keeps the number of calls made and promised for a request, apart from
the request that is made by it, from one whose completion handler is replaced, and from one
whose file copy raises an exception because its task has no `filePath`.
-/

namespace LCCFileService

open LCS3Hander

/-- The calls of the finish block of a request that were made, or for which a continuation
waits. -/
def pledged (q : RequestRef) (s : System) : Nat :=
  s.answers.countP (fun a => a.1 = q) + s.waiting.countP (fun c => c.answers && c.request = q)

/-- The completion handler of the transfer is that of the request. -/
def AWSS3TransferUtilityTask.heldBy (q : RequestRef) (t : AWSS3TransferUtilityTask) : Bool :=
  t.completionHandler.any (fun handler => handler.request = q)

/-- The calls of the finish block of a request that were made or are promised. -/
def promised (q : RequestRef) (s : System) : Nat :=
  pledged q s + s.transfers.count (AWSS3TransferUtilityTask.heldBy q)

/-- From `s` to `s'` the finish block of the request is called or pledged to be called once more,
and nothing is added to `taskDic` or waits to be. -/
structure Pledges (q : RequestRef) (s s' : System) : Prop where
  transfers : s'.transfers = s.transfers
  taskDic : ∀ k r, s'.taskDic.lookup k = some r → s.taskDic.lookup k = some r
  requests : s'.requests = s.requests
  started : ∀ q' r, .started q' r ∈ s'.waiting → .started q' r ∈ s.waiting
  count : ∀ q', pledged q' s' = pledged q' s + if q' = q then 1 else 0

namespace Pledges

variable {E : Env} {q : RequestRef} {s s' : System}

/-- What comes before may change the service, the bucket and the messages sent. -/
theorem before {s₀ : System} (h : Pledges q s s') (htransfers : s.transfers = s₀.transfers)
    (htaskDic : s.taskDic = s₀.taskDic) (hrequests : s.requests = s₀.requests)
    (hwaiting : s.waiting = s₀.waiting) (hanswers : s.answers = s₀.answers) :
  Pledges q s₀ s'
  := by
  constructor
  · apply h.transfers.trans htransfers
  · rw [← htaskDic]
    apply h.taskDic
  · apply h.requests.trans hrequests
  · rw [← hwaiting]
    apply h.started
  · intro q'
    rw [h.count q', pledged, pledged, hwaiting, hanswers]

theorem finishCallback (q : RequestRef) (error : Option NSError) (s : System) :
  Pledges q s (LCS3Hander.finishCallback E q error s)
  := by
  have hcall : (LCS3Hander.finishCallback E q error s).toHander
      = { s.toHander with answers := s.answers ++ [(q, error)] } := by
    rw [LCS3Hander.finishCallback]
    split
    · rfl
    · rfl
  constructor
  · rw [hcall]
  · rw [hcall]
    intro k r hr
    apply hr
  · rw [hcall]
  · rw [hcall]
    intro q' r hmem
    apply hmem
  · intro q'
    rw [pledged, pledged, hcall, List.countP_append,
      List.countP_singleton]
    simp only [decide_eq_true_eq, eq_comm (a := q)]
    omega

theorem wait (c : Continuation) (hc : c.answers) (s : System) :
  Pledges c.request s (s.wait c)
  := by
  constructor
  · rfl
  · intro k r hr
    apply hr
  · rfl
  · intro q' r hmem
    rcases List.mem_append.mp hmem with hmem | hmem
    · apply hmem
    · obtain rfl := List.mem_singleton.mp hmem
      cases hc
  · intro q'
    have hwaiting : (s.wait c).waiting = s.waiting ++ [c] := rfl
    have hanswers : (s.wait c).answers = s.answers := rfl
    rw [pledged, pledged, hwaiting, hanswers, List.countP_append,
      List.countP_singleton, hc]
    simp only [Bool.true_and, decide_eq_true_eq, eq_comm (a := c.request)]
    omega

/-- The progress block changes the service only. -/
theorem toHander_progressCallback (q : RequestRef) (s : System) :
  (progressCallback E q s).toHander = s.toHander
  := by
  rw [progressCallback]
  split
  · rfl
  · rfl

theorem pStartUpload (q : RequestRef) (s : System) :
  Pledges q s (LCS3Hander.pStartUpload E q s)
  := by
  rw [LCS3Hander.pStartUpload]
  split
  · next fileKey filePath _ _ =>
      split
      · apply wait (.start q _ fileKey filePath) rfl s
      · apply finishCallback
  · apply finishCallback

theorem pStartDownload (q : RequestRef) (s : System) :
  Pledges q s (LCS3Hander.pStartDownload E q s)
  := by
  rw [LCS3Hander.pStartDownload]
  split
  · next fileKey filePath _ _ => exact wait (.start q .download fileKey filePath) rfl s
  · apply finishCallback

theorem copyCallback (q : RequestRef) (error : Option NSError) (s : System) :
  Pledges q s (LCS3Hander.copyCallback E q error s)
  := by
  have hprogress := @toHander_progressCallback E q s
  rw [LCS3Hander.copyCallback]
  split
  · split
    · apply pStartUpload
    · apply pStartDownload
  · apply (finishCallback q none _).before
    · rw [hprogress]
    · rw [hprogress]
    · rw [hprogress]
    · rw [hprogress]
    · rw [hprogress]

theorem pCopyTask (q : RequestRef) (source : LCFileNetTaskRow) (s : System) :
  Pledges q s (LCS3Hander.pCopyTask E q source s)
  := by
  rw [LCS3Hander.pCopyTask]
  split
  · apply wait (.replicate q source _) rfl s
  · split
    · apply wait (.copyItem q source) rfl s
    · apply copyCallback
  · apply copyCallback

theorem lcFileNetHanderUpload (q : RequestRef) (s : System) :
  Pledges q s (LCS3Hander.lcFileNetHanderUpload E q s)
  := by
  rw [LCS3Hander.lcFileNetHanderUpload]
  split
  · apply pCopyTask
  · apply pStartUpload

theorem lcFileNetHanderDownload (q : RequestRef) (s : System) :
  Pledges q s (LCS3Hander.lcFileNetHanderDownload E q s)
  := by
  rw [LCS3Hander.lcFileNetHanderDownload]
  split
  · apply pCopyTask
  · apply pStartDownload

/-- Removing from `taskDic` afterwards does not matter. -/
theorem removeObject (h : Pledges q s s') (q' : RequestRef) :
  Pledges q s (LCS3Hander.removeObject q' s')
  := by
  rw [LCS3Hander.removeObject]
  split
  · next taskId _ =>
      refine ⟨h.transfers, ?_, h.requests, h.started, h.count⟩
      intro k r hr
      rw [System.toHander_mapHander, Dictionary.lookup_erase] at hr
      split at hr
      · cases hr
      · apply h.taskDic k r hr
  · exact ⟨h.transfers, h.taskDic, h.requests, h.started, h.count⟩

theorem answerCompletion (kind : TransferKind) (q : RequestRef) (error : Option NSError)
    (s : System) :
  Pledges q s (LCS3Hander.answerCompletion E kind q error s)
  := by
  rw [LCS3Hander.answerCompletion]
  split
  · apply finishCallback
  · split
    · exact (finishCallback q none _).before rfl rfl rfl rfl rfl
    · exact wait (.url q) rfl s

theorem runCompletionHandler (kind : TransferKind) (handler : CompletionHandler)
    (error : Option NSError) (s : System) :
  Pledges handler.request s (LCS3Hander.runCompletionHandler E kind handler error s)
  := by
  have hanswer := @answerCompletion E kind handler.request error s
  rw [LCS3Hander.runCompletionHandler]
  split
  · apply hanswer.removeObject handler.request
  · apply hanswer

end Pledges

/-! ### Accounts -/

/-- What `taskDic` holds, and what waits to be put there, are transfers of the utility. -/
structure Tidy (s : System) : Prop where
  listed : ∀ k r, s.taskDic.lookup k = some r → r < s.transfers.next
  started : ∀ q r, .started q r ∈ s.waiting → r < s.transfers.next

/-- One for the request `q`. -/
def oneFor (q q' : RequestRef) : Nat := if q' = q then 1 else 0

/-- From `s` to `s'` the calls made and promised grow by what is gained and shrink by what is
lost. -/
structure Accounts (gained lost : RequestRef → Nat) (s s' : System) : Prop where
  tidy : Tidy s → Tidy s'
  requests : s'.requests = s.requests
  count : ∀ q, promised q s' + lost q = promised q s + gained q

namespace Accounts

variable {E : Env} {q : RequestRef} {s s' s'' : System} {gained lost : RequestRef → Nat}

theorem trans {gained' lost' : RequestRef → Nat} (h : Accounts gained lost s s')
    (h' : Accounts gained' lost' s' s'') :
  Accounts (fun q => gained q + gained' q) (fun q => lost q + lost' q) s s''
  := by
  constructor
  · intro htidy
    apply h'.tidy (h.tidy htidy)
  · apply h'.requests.trans h.requests
  · intro q
    have hq := h.count q
    have hq' := h'.count q
    omega

/-- What is gained and lost alike does not count. -/
theorem of_eq {gained' lost' : RequestRef → Nat} (h : Accounts gained lost s s')
    (heq : ∀ q, gained q + lost' q = gained' q + lost q) :
  Accounts gained' lost' s s'
  := by
  refine ⟨h.tidy, h.requests, ?_⟩
  intro q
  have hq := h.count q
  have hq' := heq q
  omega

theorem of_pledges (h : Pledges q s s') :
  Accounts (oneFor q) 0 s s'
  := by
  constructor
  · intro htidy
    constructor
    · intro k r hr
      rw [h.transfers]
      apply htidy.listed k r (h.taskDic k r hr)
    · intro q' r hr
      rw [h.transfers]
      apply htidy.started q' r (h.started q' r hr)
  · apply h.requests
  · intro q'
    rw [promised, promised, h.count q', h.transfers, oneFor, Pi.zero_apply]
    omega

/-- Changes of the service, the bucket and the messages sent do not count. -/
theorem same (htransfers : s'.transfers = s.transfers) (htaskDic : s'.taskDic = s.taskDic)
    (hrequests : s'.requests = s.requests) (hwaiting : s'.waiting = s.waiting)
    (hanswers : s'.answers = s.answers) :
  Accounts 0 0 s s'
  := by
  constructor
  · rintro ⟨hlisted, hstarted⟩
    constructor
    · rw [htransfers, htaskDic]
      apply hlisted
    · rw [htransfers, hwaiting]
      apply hstarted
  · apply hrequests
  · intro q
    rw [promised, promised, pledged, pledged, htransfers, hwaiting, hanswers]

/-- A transfer of the utility waits to be put into `taskDic`. -/
theorem waitStarted {r : TransferRef} (hr : r < s.transfers.next) (q : RequestRef) :
  Accounts 0 0 s (s.wait (.started q r))
  := by
  constructor
  · intro htidy
    refine ⟨htidy.listed, ?_⟩
    intro q' r' hmem
    rcases List.mem_append.mp hmem with hmem | hmem
    · apply htidy.started q' r' hmem
    · cases List.mem_singleton.mp hmem
      apply hr
  · rfl
  · intro q'
    have hwaiting : (s.wait (.started q r)).waiting = s.waiting ++ [.started q r] := rfl
    have hanswers : (s.wait (.started q r)).answers = s.answers := rfl
    have htransfers : (s.wait (.started q r)).transfers = s.transfers := rfl
    rw [promised, promised, pledged, pledged, hwaiting, hanswers, htransfers, List.countP_append,
      List.countP_singleton]
    rfl

theorem setObject {r : TransferRef} (hr : r < s.transfers.next) (q : RequestRef) :
  Accounts 0 0 s (LCS3Hander.setObject q r s)
  := by
  rw [LCS3Hander.setObject]
  split
  · refine ⟨?_, rfl, fun _ => rfl⟩
    intro htidy
    refine ⟨?_, htidy.started⟩
    intro k r' hr'
    rw [System.toHander_mapHander, Dictionary.lookup_insert] at hr'
    split at hr'
    · obtain rfl := Option.some.inj hr'
      apply hr
    · apply htidy.listed k r' hr'
  · exact same rfl rfl rfl rfl rfl

/-- A continuation that waits no more. -/
theorem dropWaiting {i : Nat} {c : Continuation} (hc : s.waiting[i]? = some c) :
  Accounts 0 (fun q => if c.answers then oneFor c.request q else 0) s (s.dropWaiting i)
  := by
  constructor
  · intro htidy
    refine ⟨htidy.listed, ?_⟩
    intro q r hmem
    apply htidy.started q r (List.mem_of_mem_eraseIdx hmem)
  · rfl
  · intro q
    obtain ⟨hi, rfl⟩ := List.getElem?_eq_some_iff.mp hc
    have hcount := (List.getElem_cons_eraseIdx_perm hi).countP_eq
      (fun c => c.answers && decide (c.request = q))
    have hwaiting : (s.dropWaiting i).waiting = s.waiting.eraseIdx i := rfl
    have hanswers : (s.dropWaiting i).answers = s.answers := rfl
    have htransfers : (s.dropWaiting i).transfers = s.transfers := rfl
    rw [List.countP_cons] at hcount
    rw [promised, promised, pledged, pledged, hwaiting, hanswers, htransfers, ← hcount, oneFor,
      Pi.zero_apply]
    cases (s.waiting[i]).answers with
    | true =>
        simp only [Bool.true_and, decide_eq_true_eq, if_true, eq_comm (a := q)]
        omega
    | false =>
        simp only [Bool.false_and, Bool.false_eq_true, if_false]
        omega

/-- A transfer whose completion handler may change. -/
theorem setTransfer {r : TransferRef} (hr : r < s.transfers.next)
    (f : AWSS3TransferUtilityTask → AWSS3TransferUtilityTask) :
  Accounts (fun q => if (f (s.transfers.cell r)).heldBy q then 1 else 0)
    (fun q => if (s.transfers.cell r).heldBy q then 1 else 0) s (s.setTransfer r f)
  := by
  refine ⟨fun htidy => ⟨htidy.listed, htidy.started⟩, rfl, ?_⟩
  intro q
  have hcount := Heap.count_modify (AWSS3TransferUtilityTask.heldBy q) f hr
  have hpledged : pledged q (s.setTransfer r f) = pledged q s := rfl
  rw [promised, promised, hpledged, Nat.add_assoc, Nat.add_assoc]
  apply congrArg (pledged q s + ·) hcount

/-- A change that leaves the completion handler of a transfer. -/
theorem setTransfer_same (r : TransferRef)
    {f : AWSS3TransferUtilityTask → AWSS3TransferUtilityTask}
    (hf : ∀ t, (f t).completionHandler = t.completionHandler) :
  Accounts 0 0 s (s.setTransfer r f)
  := by
  refine ⟨fun htidy => ⟨htidy.listed, htidy.started⟩, rfl, ?_⟩
  intro q
  have hcount : (s.transfers.modify r f).count (AWSS3TransferUtilityTask.heldBy q)
      = s.transfers.count (AWSS3TransferUtilityTask.heldBy q) := by
    refine Heap.count_congr (Heap.next_modify r f s.transfers) ?_
    intro r' _
    apply Heap.map_cell_modify
    rw [AWSS3TransferUtilityTask.heldBy, AWSS3TransferUtilityTask.heldBy, hf]
  apply congrArg (pledged q s + ·) hcount

/-- A message that leaves the completion handler of a transfer. -/
theorem send (r : TransferRef) (message : TransferMessage)
    {f : AWSS3TransferUtilityTask → AWSS3TransferUtilityTask}
    (hf : ∀ t, (f t).completionHandler = t.completionHandler) :
  Accounts 0 0 s (s.send r message f)
  := by
  have hsent : Accounts 0 0 (s.setTransfer r f) (s.send r message f) := same rfl rfl rfl rfl rfl
  apply (setTransfer_same r hf).trans hsent

/-- A transfer is started, and holds the request. -/
theorem alloc (t : AWSS3TransferUtilityTask) (ht : t.completionHandler = some ⟨q, true⟩) :
  Accounts (oneFor q) 0 s
    (s.mapHander (fun h => { h with transfers := h.transfers.alloc t }))
  := by
  refine ⟨fun htidy => ⟨?_, ?_⟩, rfl, ?_⟩
  · intro k r hr
    apply Nat.lt_succ_of_lt (htidy.listed k r hr)
  · intro q' r hr
    apply Nat.lt_succ_of_lt (htidy.started q' r hr)
  · intro q'
    have hcount := Heap.count_alloc (AWSS3TransferUtilityTask.heldBy q') t s.transfers
    have hheld : t.heldBy q' = decide (q = q') := by
      rw [AWSS3TransferUtilityTask.heldBy, ht]
      rfl
    rw [hheld] at hcount
    simp only [decide_eq_true_eq, eq_comm (a := q)] at hcount
    have hsum := congrArg (pledged q' s + ·) hcount
    rw [oneFor, Pi.zero_apply, Nat.add_zero]
    apply hsum.trans (Nat.add_assoc _ _ _).symm

/-- What a transfer that ends has promised is kept. -/
theorem complete {r : TransferRef} (hr : r < s.transfers.next) :
  Accounts 0 0 s (LCS3Hander.complete E r s)
  := by
  rw [LCS3Hander.complete]
  split
  · next handler hhandler =>
      have hrun := @Pledges.runCompletionHandler E (s.transfers.cell r).kind handler
        (s.transfers.cell r).error s
      have hrelease := setTransfer (s := LCS3Hander.runCompletionHandler E
          (s.transfers.cell r).kind handler (s.transfers.cell r).error s)
        (by rw [hrun.transfers]; exact hr) (fun t => { t with completionHandler := none })
      apply ((of_pledges hrun).trans hrelease).of_eq
      intro q
      simp only [hrun.transfers, AWSS3TransferUtilityTask.heldBy, hhandler, Option.any_some,
        Option.any_none, oneFor, Pi.zero_apply, decide_eq_true_eq, eq_comm (a := handler.request)]
      simp
  · apply same rfl rfl rfl rfl rfl

/-- Installing a completion handler, upon which the one installed before is lost. -/
theorem setCompletionHandler {r : TransferRef} (hr : r < s.transfers.next) (q : RequestRef) :
  Accounts (oneFor q) (fun q' => if (s.transfers.cell r).heldBy q' then 1 else 0) s
    (LCS3Hander.setCompletionHandler E r ⟨q, false⟩ s)
  := by
  have hset := setTransfer (s := s) hr (fun t => { t with completionHandler := some ⟨q, false⟩ })
  have hsend : Accounts 0 0 (s.setTransfer r
      (fun t => { t with completionHandler := some ⟨q, false⟩ })) (s.send r .setCompletionHandler
        (fun t => { t with completionHandler := some ⟨q, false⟩ })) := same rfl rfl rfl rfl rfl
  have hinstall := hset.trans hsend
  have hgained : ∀ q', (if ({ s.transfers.cell r with
      completionHandler := some ⟨q, false⟩ } : AWSS3TransferUtilityTask).heldBy q' then 1 else 0)
      = oneFor q q' := by
    intro q'
    simp only [AWSS3TransferUtilityTask.heldBy, Option.any_some, decide_eq_true_eq, oneFor,
      eq_comm (a := q)]
  rw [LCS3Hander.setCompletionHandler]
  split
  · apply (hinstall.trans (complete hr)).of_eq
    intro q'
    rw [hgained]
    rfl
  · apply hinstall.of_eq
    intro q'
    rw [hgained]
    rfl

end Accounts

/-! ### Requests -/

/-- The method takes a transfer of the kind it finds in `taskDic`. -/
def HanderMethod.takes (method : HanderMethod) (kind : TransferKind) : Bool :=
  match method with
  | .resumUpload => kind = .upload || kind = .multiPartUpload
  | .resumDownload => kind = .download
  | _ => false

/-- The entry of `taskDic` for the task of a request. -/
def entry (r : Request) (s : System) : Option TransferRef :=
  (s.tasks.cell r.task).taskId.bind s.taskDic.lookup

/-- A resumption finds a transfer held by the request `q`. -/
def takesOver (r : Request) (q : RequestRef) (s : System) : Bool :=
  r.method.resumes && (entry r s).any (fun transfer => (s.transfers.cell transfer).heldBy q)

/-- The request an event makes. -/
def made (s : System) : HanderEvent → Option Request
  | .call r =>
      if uncalled r s then
        some ⟨(s.calls.cell r).method, s.taskOf (s.calls.cell r).op, some r⟩
      else none
  | .request method task => if task < s.tasks.next then some ⟨method, task, none⟩ else none
  | _ => none

/-- The event makes the request. -/
def Makes (s : System) (r : Request) (e : HanderEvent) : Prop := made s e = some r

/-- A resumption finds no transfer of another class. -/
def RightClass (s : System) (e : HanderEvent) : Prop :=
  ∀ r ∈ made s e, r.method.resumes → ∀ transfer ∈ entry r s,
    r.method.takes (s.transfers.cell transfer).kind

instance (s : System) (e : HanderEvent) : Decidable (RightClass s e) :=
  inferInstanceAs (Decidable (∀ r ∈ made s e, _))

/-- The continuation copies a file to the path nil. -/
def Continuation.copiesToNil (s : System) : Continuation → Bool
  | .copyItem q _ => (s.taskOfRequest q).filePath.isNone
  | _ => false

/-- No file copy goes on for a task without `filePath`. -/
def CopiesToPath (s : System) : HanderEvent → Prop
  | .goOn i _ error => ∀ c ∈ s.waiting[i]?, mayGoOn error s c → c.copiesToNil s = false
  | _ => True

instance (s : System) : (e : HanderEvent) → Decidable (CopiesToPath s e)
  | .goOn i _ _ => inferInstanceAs (Decidable (∀ c ∈ s.waiting[i]?, _ → _))
  | .ends _ _ | .body _ _ | .service _ | .call _ | .request _ _ | .progress _ _ _
  | .loadHistory _ _ _ => isTrue trivial

/-- A resumption finds no transfer of another class, and a file is copied to a path. -/
def Answerable (s : System) (e : HanderEvent) : Prop := RightClass s e ∧ CopiesToPath s e

instance (s : System) (e : HanderEvent) : Decidable (Answerable s e) :=
  inferInstanceAs (Decidable (_ ∧ _))

/-- A resumption replaces the completion handler of the request `q`. -/
def Replaces (q : RequestRef) (s : System) (e : HanderEvent) : Prop :=
  ∃ r, Makes s r e ∧ takesOver r q s

section

variable {E : Env} {s : System}

/-- What a request gains and loses, where its method resumes only a transfer it takes. -/
theorem Accounts.resumTask {q : RequestRef} {takes : TransferKind → Bool} (htidy : Tidy s)
    (htakes : ∀ transfer ∈ awsTask q s, takes (s.transfers.cell transfer).kind) :
  Accounts (oneFor q)
    (fun q' => if (awsTask q s).any (fun r => (s.transfers.cell r).heldBy q') then 1 else 0) s
    (LCS3Hander.resumTask E takes q s)
  := by
  rw [LCS3Hander.resumTask]
  cases htask : awsTask q s with
  | none =>
      apply (Accounts.of_pledges (Pledges.finishCallback q (some {}) s)).of_eq
      intro q'
      rfl
  | some r =>
      have hr : r < s.transfers.next := by
        obtain ⟨taskId, -, hlisted⟩ := Option.bind_eq_some_iff.mp htask
        apply htidy.listed taskId r hlisted
      simp only [if_pos (htakes r htask)]
      have hset := @setCompletionHandler E s r hr q
      have hresume : Accounts 0 0 (LCS3Hander.setCompletionHandler E r ⟨q, false⟩ s)
          ((LCS3Hander.setCompletionHandler E r ⟨q, false⟩ s).send r .resume
            AWSS3TransferUtilityTask.resume) :=
        send r .resume AWSS3TransferUtilityTask.completionHandler_resume
      apply (hset.trans hresume).of_eq
      intro q'
      rfl

/-- What a call of a method gains and loses. -/
theorem Accounts.callMethod {q : RequestRef} (htidy : Tidy s)
    (hclass : (s.requests.cell q).method.resumes → ∀ transfer ∈ awsTask q s,
      (s.requests.cell q).method.takes (s.transfers.cell transfer).kind) :
  Accounts (if (s.requests.cell q).method.transfers then oneFor q else 0)
    (fun q' => if (s.requests.cell q).method.resumes &&
      (awsTask q s).any (fun r => (s.transfers.cell r).heldBy q') then 1 else 0) s
    (LCS3Hander.callMethod E q s)
  := by
  rw [LCS3Hander.callMethod]
  cases hmethod : (s.requests.cell q).method with
  | upload => apply of_pledges (Pledges.lcFileNetHanderUpload q s)
  | download => apply of_pledges (Pledges.lcFileNetHanderDownload q s)
  | resumUpload =>
      rw [hmethod] at hclass
      apply resumTask htidy (hclass rfl)
  | resumDownload =>
      rw [hmethod] at hclass
      apply resumTask htidy (hclass rfl)
  | cancel =>
      simp only [lcFileNetHanderCancelTask]
      cases awsTask q s with
      | none => apply same rfl rfl rfl rfl rfl
      | some r => exact send r .cancel (fun _ => rfl)
  | pause =>
      simp only [lcFileNetHanderPauseTask]
      cases awsTask q s with
      | none => apply same rfl rfl rfl rfl rfl
      | some r => apply send r .suspend AWSS3TransferUtilityTask.completionHandler_suspend

/-- What a new request gains and loses. -/
theorem Accounts.request {r : Request} (htidy : Tidy s)
    (hclass : r.method.resumes → ∀ transfer ∈ entry r s,
      r.method.takes (s.transfers.cell transfer).kind) :
  Accounts (if r.method.transfers then oneFor s.requests.next else 0)
    (fun q => if takesOver r q s then 1 else 0) (s.addRequest r) (LCS3Hander.request E r s)
  := by
  have hcell : (s.addRequest r).requests.cell s.requests.next = r :=
    Heap.cell_alloc_next r s.requests
  have htask : awsTask s.requests.next (s.addRequest r) = entry r s := by
    rw [awsTask, System.taskOfRequest, hcell]
    rfl
  have htidy' : Tidy (s.addRequest r) := ⟨htidy.listed, htidy.started⟩
  have hcall := @callMethod E (s.addRequest r) s.requests.next htidy'
  rw [hcell, htask] at hcall
  exact hcall hclass

/-! ### Going on -/

/-- A continuation that is to call the finish block makes the call or promises it again. -/
theorem Accounts.goOn {c : Continuation} (hc : c.answers) (hpath : c.copiesToNil s = false)
    (url : Option String) (error : Option NSError) :
  Accounts (oneFor c.request) 0 s (LCS3Hander.goOn E url error c s)
  := by
  cases c with
  | replicate q source key =>
      cases error with
      | some error => apply of_pledges (Pledges.copyCallback q _ s)
      | none =>
          have hcopy : Accounts 0 0 s (replicateObject source.fileKey key s) := by
            unfold replicateObject
            split
            · exact same rfl rfl rfl rfl rfl
            · apply same rfl rfl rfl rfl rfl
          apply (hcopy.trans (of_pledges (Pledges.wait (.copyURL q source) rfl _))).of_eq
          intro q'
          simp [Continuation.request]
  | copyURL q source =>
      exact of_pledges ((Pledges.copyCallback q error _).before rfl rfl rfl rfl rfl)
  | copyItem q source =>
      rw [LCS3Hander.goOn]
      unfold copyItemAtPath
      split
      · next hnil =>
          rw [Continuation.copiesToNil, hnil] at hpath
          cases hpath
      · apply of_pledges (Pledges.wait (.copied q source _) rfl s)
      · next path _ =>
          have hcopy : Accounts 0 0 s (LCS3Hander.copyItem source.filePath path s) := by
            unfold LCS3Hander.copyItem
            split
            · exact same rfl rfl rfl rfl rfl
            · apply same rfl rfl rfl rfl rfl
          apply (hcopy.trans (of_pledges (Pledges.wait (.copied q source none) rfl _))).of_eq
          intro q'
          simp [Continuation.request]
  | copied q source copyError =>
      cases copyError with
      | some copyError =>
          exact of_pledges ((Pledges.copyCallback q _ _).before rfl rfl rfl rfl rfl)
      | none => exact of_pledges ((Pledges.copyCallback q _ _).before rfl rfl rfl rfl rfl)
  | start q kind key path =>
      cases error with
      | some error => apply of_pledges (Pledges.finishCallback q _ s)
      | none =>
          have halloc := @alloc q s { kind, key, path, completionHandler := some ⟨q, true⟩ } rfl
          have hwait := waitStarted (s := s.mapHander (fun h => { h with
            transfers := h.transfers.alloc
              { kind, key, path, completionHandler := some ⟨q, true⟩ } }))
            (Nat.lt_succ_self s.transfers.next) q
          apply (halloc.trans hwait).of_eq
          intro q'
          rfl
  | started q r => cases hc
  | url q => exact of_pledges ((Pledges.finishCallback q error _).before rfl rfl rfl rfl rfl)

/-- The end of a transfer keeps what it has promised. -/
theorem Accounts.endTransfer {r : TransferRef} (hr : r < s.transfers.next)
    (error : Option NSError) :
  Accounts 0 0 s (LCS3Hander.endTransfer E r error s)
  := by
  have hmoved : (if error.isSome then s else transferred (s.transfers.cell r) s).transfers
        = s.transfers ∧
      Accounts 0 0 s (if error.isSome then s else transferred (s.transfers.cell r) s) := by
    split
    · exact ⟨rfl, same rfl rfl rfl rfl rfl⟩
    · rw [transferred]
      split
      · split
        · exact ⟨rfl, same rfl rfl rfl rfl rfl⟩
        · exact ⟨rfl, same rfl rfl rfl rfl rfl⟩
      · exact ⟨rfl, same rfl rfl rfl rfl rfl⟩
  have hfinish := hmoved.2.trans
    (setTransfer_same r (f := AWSS3TransferUtilityTask.finish error) (fun _ => rfl))
  apply (hfinish.trans (complete _)).of_eq
  · intro q
    rfl
  · rw [← hmoved.1] at hr
    apply hr

theorem Accounts.loadTransfers {transfers : List TransferRef}
    (h : ∀ r ∈ transfers, r < s.transfers.next) :
  Accounts 0 0 s (LCS3Hander.loadTransfers transfers s)
  := by
  induction transfers generalizing s with
  | nil => apply same rfl rfl rfl rfl rfl
  | cons r transfers ih =>
      rw [List.forall_mem_cons] at h
      have hsend : Accounts 0 0 s (s.send r .suspend AWSS3TransferUtilityTask.suspend) :=
        send r .suspend AWSS3TransferUtilityTask.completionHandler_suspend
      have hlist : Accounts 0 0 (s.send r .suspend AWSS3TransferUtilityTask.suspend)
          ((s.send r .suspend AWSS3TransferUtilityTask.suspend).mapHander
            (fun h => { h with taskDic := h.taskDic.insert (h.transfers.cell r).key r })) := by
        refine ⟨?_, rfl, fun _ => rfl⟩
        intro htidy
        refine ⟨?_, htidy.started⟩
        intro k r' hr'
        rw [System.toHander_mapHander, Dictionary.lookup_insert] at hr'
        split at hr'
        · obtain rfl := Option.some.inj hr'
          apply h.1
        · apply htidy.listed k r' hr'
      apply ((hsend.trans hlist).trans (ih h.2)).of_eq
      intro q
      rfl

/-- A step that makes no request keeps the calls made and promised. -/
theorem Accounts.step {e : HanderEvent} (htidy : Tidy s) (hrestart : e ≠ .service .restart)
    (hcopies : CopiesToPath s e) (he : ∀ r, ¬ Makes s r e) :
  Accounts 0 0 s (System.step E s e)
  := by
  have hrefl : Accounts 0 0 s s := same rfl rfl rfl rfl rfl
  cases e with
  | service e =>
      cases e with
      | restart => exact absurd rfl hrestart
      | progress r => exact hrefl
      | finish r error => exact hrefl
      | _ => exact same rfl rfl rfl rfl rfl
  | call r =>
      rw [System.step]
      split
      · next huncalled => exact absurd (if_pos huncalled) (he _)
      · exact hrefl
  | request method task =>
      rw [System.step]
      split
      · next htask => exact absurd (if_pos htask) (he _)
      · exact hrefl
  | goOn i url error =>
      rw [System.step]
      split
      · next c hc =>
          split
          · next hmay =>
            have hdrop := dropWaiting hc
            cases hanswers : c.answers with
            | true =>
                have hpath : c.copiesToNil (s.dropWaiting i) = false := hcopies c hc hmay
                apply (hdrop.trans (goOn hanswers hpath url error)).of_eq
                intro q
                simp [hanswers]
            | false =>
                cases c with
                | started q r =>
                    have hr : r < (s.dropWaiting i).transfers.next :=
                      htidy.started q r (List.mem_of_getElem? hc)
                    exact hdrop.trans (setObject hr q)
                | _ => cases hanswers
          · exact hrefl
      · exact hrefl
  | ends r error =>
      rw [System.step]
      split
      · next hend =>
          apply endTransfer
          rw [mayEnd, Bool.and_eq_true, Bool.and_eq_true, decide_eq_true_eq] at hend
          exact hend.1.1
      · exact hrefl
  | body r body =>
      rw [System.step]
      split
      · exact same rfl rfl rfl rfl rfl
      · exact hrefl
  | progress r completed total =>
      rw [System.step]
      split
      · rw [progressBlock]
        split
        · next handler _ =>
            have hprogress := @Pledges.toHander_progressCallback E handler.request
              (s.setTaskOf handler.request (fun task => { task with
                finishedSize := max completed task.finishedSize
                totalSize := total }))
            apply same
            · rw [hprogress]
              rfl
            · rw [hprogress]
              rfl
            · rw [hprogress]
              rfl
            · rw [hprogress]
              rfl
            · rw [hprogress]
              rfl
        · exact hrefl
      · exact hrefl
  | loadHistory uploads multiParts downloads =>
      rw [System.step]
      split
      · next hall =>
          simp only [List.mem_append, or_imp, forall_and] at hall
          obtain ⟨⟨huploads, hmultiParts⟩, hdownloads⟩ := hall
          have hnext : ∀ (transfers : List TransferRef) (s : System),
              (LCS3Hander.loadTransfers transfers s).transfers.next = s.transfers.next := by
            intro transfers
            induction transfers with
            | nil => exact fun _ => rfl
            | cons r transfers ih => exact fun s => ih _
          rw [loadHistoryAWSTask]
          apply (((loadTransfers huploads).trans (loadTransfers ?_)).trans (loadTransfers ?_)).of_eq
          · intro q
            rfl
          · rw [hnext]
            exact hmultiParts
          · rw [hnext, hnext]
            exact hdownloads
      · exact hrefl

/-- A step makes a request, or keeps the calls made and promised. -/
theorem step_cases {e : HanderEvent} (htidy : Tidy s) (hrestart : e ≠ .service .restart)
    (hcopies : CopiesToPath s e) :
  (∃ r, Makes s r e ∧ System.step E s e = request E r s) ∨
    (∀ r, ¬ Makes s r e) ∧ Accounts 0 0 s (System.step E s e)
  := by
  by_cases he : ∃ r, Makes s r e
  · left
    obtain ⟨r, hr⟩ := he
    refine ⟨r, hr, ?_⟩
    cases e with
    | call c =>
        rw [Makes, made] at hr
        split at hr
        · next huncalled =>
            obtain rfl := Option.some.inj hr
            rw [System.step, if_pos huncalled]
        · cases hr
    | request method task =>
        rw [Makes, made] at hr
        split at hr
        · next htask =>
            obtain rfl := Option.some.inj hr
            rw [System.step, if_pos htask]
        · cases hr
    | _ => cases hr
  · right
    rw [not_exists] at he
    exact ⟨he, Accounts.step htidy hrestart hcopies he⟩

end

/-! ### Ended transfers -/

/-- A transfer that holds a request has not ended. -/
def Unended (s : System) : Prop :=
  ∀ r, (s.transfers.cell r).completionHandler.isSome → (s.transfers.cell r).ended = false

namespace Unended

variable {E : Env} {s s' : System}

theorem congr (h : Unended s) (htransfers : s'.transfers = s.transfers) :
  Unended s'
  := by
  rw [Unended, htransfers]
  apply h

/-- A message that leaves the completion handler of a transfer and does not end it. -/
theorem send (h : Unended s) (r : TransferRef) (message : TransferMessage)
    {f : AWSS3TransferUtilityTask → AWSS3TransferUtilityTask}
    (hf : ∀ t, (f t).completionHandler = t.completionHandler)
    (hended : ∀ t, (f t).ended → t.ended) :
  Unended (s.send r message f)
  := by
  intro r'
  have hcell : (s.send r message f).transfers.cell r'
      = if r' = r then f (s.transfers.cell r) else s.transfers.cell r' :=
    Heap.cell_modify r f s.transfers r'
  rw [hcell]
  split
  · rw [hf]
    intro hsome
    have hunended := h r hsome
    by_contra hnot
    rw [Bool.not_eq_false] at hnot
    rw [hended _ hnot] at hunended
    cases hunended
  · apply h r'

/-- A transfer that completes holds no request any more. -/
theorem complete {r : TransferRef}
    (h : ∀ r', r' ≠ r → (s.transfers.cell r').completionHandler.isSome →
      (s.transfers.cell r').ended = false) :
  Unended (LCS3Hander.complete E r s)
  := by
  intro r'
  rw [LCS3Hander.complete]
  split
  · next handler _ =>
      have hrun := @Pledges.runCompletionHandler E (s.transfers.cell r).kind handler
        (s.transfers.cell r).error s
      rw [System.setTransfer, System.toHander_mapHander, Heap.cell_modify, hrun.transfers]
      split
      · rintro ⟨⟩
      · next hne => exact h r' hne
  · next hnone =>
      by_cases hr : r' = r
      · subst hr
        intro hsome
        rw [hnone] at hsome
        cases hsome
      · apply h r' hr

theorem setCompletionHandler (h : Unended s) (r : TransferRef) (handler : CompletionHandler) :
  Unended (LCS3Hander.setCompletionHandler E r handler s)
  := by
  have hothers : ∀ r', r' ≠ r → ∀ f message,
      (s.send r message f).transfers.cell r' = s.transfers.cell r' := by
    intro r' hne f message
    apply (Heap.cell_modify r f s.transfers r').trans (if_neg hne)
  rw [LCS3Hander.setCompletionHandler]
  split
  · apply complete
    intro r' hne
    rw [hothers r' hne]
    apply h r'
  · next hended =>
      intro r' hsome
      by_cases hr : r' = r
      · subst hr
        exact Bool.not_eq_true _ ▸ hended
      · rw [hothers r' hr] at hsome ⊢
        apply h r' hsome

theorem resumTask (h : Unended s) (takes : TransferKind → Bool) (q : RequestRef) :
  Unended (LCS3Hander.resumTask E takes q s)
  := by
  rw [LCS3Hander.resumTask]
  split
  · next r _ =>
      split
      · apply (h.setCompletionHandler r ⟨q, false⟩).send
        · apply AWSS3TransferUtilityTask.completionHandler_resume
        · intro t hended
          rw [← t.ended_resume]
          apply hended
      · apply h
  · apply h.congr (Pledges.finishCallback q _ s).transfers

theorem request (h : Unended s) (r : Request) :
  Unended (LCS3Hander.request E r s)
  := by
  have hadd : Unended (s.addRequest r) := h
  rw [LCS3Hander.request, callMethod]
  split
  · apply hadd.congr (Pledges.lcFileNetHanderUpload _ _).transfers
  · apply hadd.congr (Pledges.lcFileNetHanderDownload _ _).transfers
  · apply hadd.resumTask
  · apply hadd.resumTask
  · rw [lcFileNetHanderCancelTask]
    split
    · apply hadd.send
      · intro t
        rfl
      · intro t
        apply AWSS3TransferUtilityTask.ended_of_cancel
    · apply hadd
  · rw [lcFileNetHanderPauseTask]
    split
    · apply hadd.send
      · apply AWSS3TransferUtilityTask.completionHandler_suspend
      · intro t hended
        rw [← t.ended_suspend]
        apply hended
    · apply hadd

theorem goOn (h : Unended s) (url : Option String) (error : Option NSError) (c : Continuation) :
  Unended (LCS3Hander.goOn E url error c s)
  := by
  cases c with
  | replicate q source key =>
      cases error with
      | some error => exact h.congr (Pledges.copyCallback q _ s).transfers
      | none =>
          have hcopy : (replicateObject source.fileKey key s).transfers = s.transfers := by
            unfold replicateObject
            split
            · rfl
            · rfl
          exact h.congr hcopy
  | copyURL q source => exact h.congr (Pledges.copyCallback q error _).transfers
  | copyItem q source =>
      rw [LCS3Hander.goOn]
      unfold copyItemAtPath
      split
      · exact h
      · exact h
      · next path _ =>
          have hcopy : (LCS3Hander.copyItem source.filePath path s).transfers = s.transfers := by
            unfold LCS3Hander.copyItem
            split
            · rfl
            · rfl
          exact h.congr hcopy
  | copied q source copyError =>
      cases copyError with
      | some copyError => exact h.congr (Pledges.copyCallback q _ _).transfers
      | none => exact h.congr (Pledges.copyCallback q _ _).transfers
  | start q kind key path =>
      cases error with
      | some error => exact h.congr (Pledges.finishCallback q _ s).transfers
      | none =>
          intro r
          have hcell := Heap.cell_alloc
            { kind, key, path, completionHandler := some ⟨q, true⟩ } s.transfers r
          have hgo : (LCS3Hander.goOn E url none (.start q kind key path) s).transfers
              = s.transfers.alloc
                { kind, key, path, completionHandler := some ⟨q, true⟩ } := rfl
          rw [hgo, hcell]
          split
          · intro _
            rfl
          · exact h r
  | started q r =>
      have hset : (LCS3Hander.setObject q r s).transfers = s.transfers := by
        rw [LCS3Hander.setObject]
        split
        · rfl
        · rfl
      exact h.congr hset
  | url q => exact h.congr (Pledges.finishCallback q error _).transfers

theorem endTransfer (h : Unended s) (r : TransferRef) (error : Option NSError) :
  Unended (LCS3Hander.endTransfer E r error s)
  := by
  have hmoved : (if error.isSome then s else transferred (s.transfers.cell r) s).transfers
      = s.transfers := by
    split
    · rfl
    · rw [transferred]
      split
      · split
        · rfl
        · rfl
      · rfl
  apply complete
  intro r' hne
  rw [System.setTransfer, System.toHander_mapHander, Heap.cell_modify, if_neg hne, hmoved]
  apply h r'

theorem loadTransfers (h : Unended s) (transfers : List TransferRef) :
  Unended (LCS3Hander.loadTransfers transfers s)
  := by
  induction transfers generalizing s with
  | nil => apply h
  | cons r transfers ih =>
      apply ih
      have hsend : Unended (s.send r .suspend AWSS3TransferUtilityTask.suspend) := by
        apply h.send
        · apply AWSS3TransferUtilityTask.completionHandler_suspend
        · intro t hended
          rw [← t.ended_suspend]
          apply hended
      apply hsend

theorem initial (db : TaskTable) (disk : Disk String Bytes)
    (transfers : Heap AWSS3TransferUtilityTask) (bucket : Disk String Bytes) :
  Unended (System.initial db disk transfers bucket)
  := by
  rintro r ⟨⟩

theorem step (h : Unended s) (e : HanderEvent) :
  Unended (System.step E s e)
  := by
  cases e with
  | service e =>
      cases e with
      | restart => apply initial
      | _ => exact h
  | call r =>
      rw [System.step]
      split
      · apply h.request
      · exact h
  | request method task =>
      rw [System.step]
      split
      · apply h.request
      · exact h
  | goOn i url error =>
      rw [System.step]
      split
      · split
        · have hdrop : Unended (s.dropWaiting i) := h
          apply hdrop.goOn
        · exact h
      · exact h
  | ends r error =>
      rw [System.step]
      split
      · apply h.endTransfer
      · exact h
  | body r body =>
      rw [System.step]
      split
      · exact h
      · exact h
  | progress r completed total =>
      rw [System.step]
      split
      · rw [progressBlock]
        split
        · apply h.congr
          rw [Pledges.toHander_progressCallback]
          rfl
        · exact h
      · exact h
  | loadHistory uploads multiParts downloads =>
      rw [System.step]
      split
      · exact ((h.loadTransfers uploads).loadTransfers multiParts).loadTransfers downloads
      · exact h

end Unended

/-! ### Runs -/

/-- In the run over `es` from `s` the completion handler of the request is replaced. -/
def Replaced (E : Env) (q : RequestRef) (s : System) (es : List HanderEvent) : Prop :=
  ∃ pre e post, es = pre ++ e :: post ∧ Replaces q (Run.final (System.step E) s pre) e

/-- The calls made and promised are none for a request that has not been made. -/
def Fresh (s : System) : Prop := ∀ q, s.requests.next ≤ q → promised q s = 0

section

variable {E : Env} {s : System}

/-- What a step does to what is promised to a request made before: it keeps it, unless it replaces
the completion handler. -/
theorem promised_step {e : HanderEvent} (htidy : Tidy s) (hrestart : e ≠ .service .restart)
    (hclass : Answerable s e) {q : RequestRef} (hq : q < s.requests.next) :
  promised q (System.step E s e) ≤ promised q s ∧
    (promised q (System.step E s e) = promised q s ∨ Replaces q s e)
  := by
  rcases @step_cases E s e htidy hrestart hclass.2 with ⟨r, hmakes, heq⟩ | ⟨-, haccounts⟩
  · have hcount := (@Accounts.request E s r htidy (hclass.1 r hmakes)).count q
    have hadd : promised q (s.addRequest r) = promised q s := rfl
    have hgained : (if r.method.transfers then oneFor s.requests.next else 0) q = 0 := by
      split
      · apply if_neg (Nat.ne_of_lt hq)
      · rfl
    rw [hadd, hgained] at hcount
    rw [heq]
    split at hcount
    · next htakes =>
        refine ⟨by omega, Or.inr ⟨r, hmakes, htakes⟩⟩
    · refine ⟨by omega, Or.inl (by omega)⟩
  · have hcount := haccounts.count q
    simp only [Pi.zero_apply, Nat.add_zero] at hcount
    rw [hcount]
    exact ⟨Nat.le_refl _, Or.inl rfl⟩

/-- No transfer holds a request that has not been made. -/
theorem Fresh.not_takesOver (h : Fresh s) {q : RequestRef} (hq : s.requests.next ≤ q)
    (htidy : Tidy s) (r : Request) :
  takesOver r q s = false
  := by
  by_contra hnot
  rw [Bool.not_eq_false, takesOver, Bool.and_eq_true, Option.any_eq_true] at hnot
  obtain ⟨-, transfer, hentry, hheld⟩ := hnot
  obtain ⟨taskId, -, hlisted⟩ := Option.bind_eq_some_iff.mp hentry
  have hpos : 0 < s.transfers.count (AWSS3TransferUtilityTask.heldBy q) :=
    Heap.count_pos_iff.mpr ⟨transfer, htidy.listed taskId transfer hlisted, hheld⟩
  have hzero := h q hq
  rw [promised] at hzero
  omega

/-- A new request is promised one call if its method takes a finish block. -/
theorem promised_new {r : Request} (htidy : Tidy s) (hfresh : Fresh s)
    (hclass : r.method.resumes → ∀ transfer ∈ entry r s,
      r.method.takes (s.transfers.cell transfer).kind) :
  promised s.requests.next (request E r s) = if r.method.transfers then 1 else 0
  := by
  have hcount := (@Accounts.request E s r htidy hclass).count s.requests.next
  have hadd : promised s.requests.next (s.addRequest r) = 0 := hfresh _ (Nat.le_refl _)
  rw [hadd, hfresh.not_takesOver (Nat.le_refl _) htidy] at hcount
  simp only [Bool.false_eq_true, if_false, Nat.add_zero, Nat.zero_add] at hcount
  rw [hcount]
  split
  · apply if_pos rfl
  · rfl

/-- A request is only entered into the list of requests. -/
theorem requests_step {e : HanderEvent} (htidy : Tidy s) (hrestart : e ≠ .service .restart)
    (hclass : Answerable s e) :
  Tidy (System.step E s e) ∧
    ((∃ r, Makes s r e ∧ System.step E s e = request E r s ∧
        (System.step E s e).requests = s.requests.alloc r) ∨
      (System.step E s e).requests = s.requests)
  := by
  rcases @step_cases E s e htidy hrestart hclass.2 with ⟨r, hmakes, heq⟩ | ⟨-, haccounts⟩
  · have haccounts := @Accounts.request E s r htidy (hclass.1 r hmakes)
    rw [heq]
    refine ⟨haccounts.tidy ⟨htidy.listed, htidy.started⟩, Or.inl ⟨r, hmakes, rfl, ?_⟩⟩
    apply haccounts.requests
  · exact ⟨haccounts.tidy htidy, Or.inr haccounts.requests⟩

/-- Requests that have not been made stay so as long as the step does not make them. -/
theorem Fresh.step {e : HanderEvent} (h : Fresh s) (htidy : Tidy s)
    (hrestart : e ≠ .service .restart) (hclass : Answerable s e) :
  Fresh (System.step E s e)
  := by
  intro q hq
  rcases @step_cases E s e htidy hrestart hclass.2 with ⟨r, hmakes, heq⟩ | ⟨-, haccounts⟩
  · have haccounts := @Accounts.request E s r htidy (hclass.1 r hmakes)
    have hcount := haccounts.count q
    have hnext : (request E r s).requests.next = s.requests.next + 1 := by
      rw [haccounts.requests]
      rfl
    rw [heq, hnext] at hq
    have hadd : promised q (s.addRequest r) = 0 := h q (Nat.le_of_succ_le hq)
    have hgained : (if r.method.transfers then oneFor s.requests.next else 0) q = 0 := by
      split
      · apply if_neg (Nat.ne_of_gt hq)
      · rfl
    rw [hadd, hgained] at hcount
    rw [heq]
    omega
  · have hcount := haccounts.count q
    rw [haccounts.requests] at hq
    rw [h q hq] at hcount
    simpa using hcount

/-- A replacement in the run after a step is one in the whole run. -/
theorem Replaced.cons {q : RequestRef} {e : HanderEvent} {es : List HanderEvent}
    (h : Replaced E q (System.step E s e) es) :
  Replaced E q s (e :: es)
  := by
  obtain ⟨pre, e', post, rfl, hreplaces⟩ := h
  exact ⟨e :: pre, e', post, rfl, hreplaces⟩

/-- In a run a request keeps what it is promised, unless its completion handler is replaced. -/
theorem promised_run {es : List HanderEvent} (htidy : Tidy s) (hrestart : .service .restart ∉ es)
    (hclass : Run.Along (System.step E) Answerable s es) {q : RequestRef}
    (hq : q < s.requests.next) :
  promised q (Run.final (System.step E) s es) ≤ promised q s ∧
    (promised q (Run.final (System.step E) s es) = promised q s ∨ Replaced E q s es) ∧
    (Run.final (System.step E) s es).requests.cell q = s.requests.cell q
  := by
  induction es generalizing s with
  | nil => exact ⟨Nat.le_refl _, Or.inl rfl, rfl⟩
  | cons e es ih =>
      rw [List.mem_cons, not_or] at hrestart
      have he := Ne.symm hrestart.1
      obtain ⟨htidy', hrequests⟩ := @requests_step E s e htidy he hclass.1
      obtain ⟨hle, hsame⟩ := @promised_step E s e htidy he hclass.1 q hq
      have hkept : q < (System.step E s e).requests.next ∧
          (System.step E s e).requests.cell q = s.requests.cell q := by
        rcases hrequests with ⟨r, -, -, heq⟩ | heq
        · rw [heq]
          exact ⟨Nat.lt_succ_of_lt hq, Heap.cell_alloc_of_lt r hq⟩
        · rw [heq]
          exact ⟨hq, rfl⟩
      obtain ⟨hle', hsame', hcell⟩ := ih htidy' hrestart.2 hclass.2 hkept.1
      refine ⟨Nat.le_trans hle' hle, ?_, hcell.trans hkept.2⟩
      rcases hsame with hsame | hreplaces
      · rcases hsame' with hsame' | hreplaced
        · apply Or.inl (hsame'.trans hsame)
        · apply Or.inr hreplaced.cons
      · apply Or.inr ⟨[], e, es, rfl, hreplaces⟩

/-- In a run every request made in it is promised one call of its finish block, unless its
completion handler is replaced. -/
theorem promised_made {es : List HanderEvent} (htidy : Tidy s) (hfresh : Fresh s)
    (hrestart : .service .restart ∉ es) (hclass : Run.Along (System.step E) Answerable s es)
    {q : RequestRef} (hq : s.requests.next ≤ q)
    (hmade : q < (Run.final (System.step E) s es).requests.next)
    (hmethod : ((Run.final (System.step E) s es).requests.cell q).method.transfers) :
  promised q (Run.final (System.step E) s es) ≤ 1 ∧
    (promised q (Run.final (System.step E) s es) = 1 ∨ Replaced E q s es)
  := by
  induction es generalizing s with
  | nil => apply absurd hmade (Nat.not_lt_of_le hq)
  | cons e es ih =>
      rw [List.mem_cons, not_or] at hrestart
      have he := Ne.symm hrestart.1
      obtain ⟨htidy', hrequests⟩ := @requests_step E s e htidy he hclass.1
      have hfresh' := @Fresh.step E s e hfresh htidy he hclass.1
      have hreplaced : Replaced E q (System.step E s e) es → Replaced E q s (e :: es) :=
        Replaced.cons
      by_cases hlater : (System.step E s e).requests.next ≤ q
      · obtain ⟨hle, hsame⟩ := ih htidy' hfresh' hrestart.2 hclass.2 hlater hmade hmethod
        exact ⟨hle, hsame.imp id hreplaced⟩
      · have hnow := Nat.lt_of_not_le hlater
        obtain ⟨hle, hsame, hcell⟩ := promised_run htidy' hrestart.2 hclass.2 hnow
        rw [Run.final_cons, hcell] at hmethod
        have hone : promised q (System.step E s e) = 1 := by
          rcases hrequests with ⟨r, hmakes, hstep, heq⟩ | heq
          · rw [heq] at hnow hmethod
            obtain rfl : q = s.requests.next :=
              Nat.le_antisymm (Nat.lt_succ_iff.mp hnow) hq
            rw [Heap.cell_alloc_next] at hmethod
            rw [hstep, promised_new htidy hfresh (hclass.1.1 r hmakes), if_pos hmethod]
          · rw [heq] at hnow
            apply absurd hnow (Nat.not_lt_of_le hq)
        rw [hone] at hle hsame
        exact ⟨hle, hsame.imp id hreplaced⟩

end

/-- The finish block of the request was called at most once; and it was called, or a waiting
continuation is to call it, or the transfer it waits for has not ended or was cancelled, or its
completion handler was replaced by a resumption. -/
def AnsweredOnce (E : Env) (q : RequestRef) (s : System) (es : List HanderEvent) : Prop :=
  let s' := Run.final (System.step E) s es
  s'.answers.countP (fun a => a.1 = q) ≤ 1 ∧
    (s'.answers.countP (fun a => a.1 = q) = 1 ∨
      (∃ c ∈ s'.waiting, c.answers ∧ c.request = q) ∨
      (∃ r < s'.transfers.next, (s'.transfers.cell r).heldBy q ∧
        (s'.transfers.cell r).ended = false) ∨
      Replaced E q s es)

/-- In every run of a process, whatever callbacks do, every request with a finish block is
answered once, if resumptions find no transfer of another class and no file copy goes on for a
task without `filePath`. -/
theorem answeredOnce (E : Env) (db : TaskTable) (disk : Disk String Bytes)
    (transfers : Heap AWSS3TransferUtilityTask) (bucket : Disk String Bytes)
    (es : List HanderEvent) (hrestart : .service .restart ∉ es)
    (hclass : Run.Along (System.step E) Answerable (System.initial db disk transfers bucket) es)
    (q : RequestRef)
    (hq : q < (Run.final (System.step E) (System.initial db disk transfers bucket)
      es).requests.next)
    (hmethod : ((Run.final (System.step E) (System.initial db disk transfers bucket)
      es).requests.cell q).method.transfers) :
  AnsweredOnce E q (System.initial db disk transfers bucket) es
  := by
  have htidy : Tidy (System.initial db disk transfers bucket) := by
    constructor
    · rintro k r ⟨⟩
    · rintro q r ⟨⟩
  have hfresh : Fresh (System.initial db disk transfers bucket) := by
    intro q _
    have hnone : ¬ 0 < (System.initial db disk transfers bucket).transfers.count
        (AWSS3TransferUtilityTask.heldBy q) := by
      rw [Heap.count_pos_iff]
      rintro ⟨r, -, ⟨⟩⟩
    have hcount := Nat.eq_zero_of_not_pos hnone
    rw [promised, hcount]
    rfl
  have hunended : Unended (Run.final (System.step E)
      (System.initial db disk transfers bucket) es) :=
    Run.final_of_invariant (fun s e h => @Unended.step E s h e)
      (Unended.initial db disk transfers bucket) es
  obtain ⟨hle, hsame⟩ := promised_made htidy hfresh hrestart hclass (Nat.zero_le q) hq hmethod
  rw [promised, pledged] at hle
  refine ⟨by omega, ?_⟩
  rcases hsame with hone | hreplaced
  · rw [promised, pledged] at hone
    by_cases hanswered : (Run.final (System.step E) (System.initial db disk transfers bucket)
        es).answers.countP (fun a => a.1 = q) = 1
    · apply Or.inl hanswered
    · right
      by_cases hwaiting : 0 < (Run.final (System.step E)
          (System.initial db disk transfers bucket) es).waiting.countP
            (fun c => c.answers && c.request = q)
      · left
        obtain ⟨c, hc, hanswers⟩ := List.countP_pos_iff.mp hwaiting
        rw [Bool.and_eq_true, decide_eq_true_eq] at hanswers
        exact ⟨c, hc, hanswers⟩
      · right
        left
        have hheld : 0 < (Run.final (System.step E) (System.initial db disk transfers bucket)
            es).transfers.count (AWSS3TransferUtilityTask.heldBy q) := by omega
        obtain ⟨r, hr, hheld⟩ := Heap.count_pos_iff.mp hheld
        refine ⟨r, hr, hheld, hunended r ?_⟩
        rw [AWSS3TransferUtilityTask.heldBy, Option.any_eq_true] at hheld
        obtain ⟨handler, hhandler, -⟩ := hheld
        apply Option.isSome_of_eq_some hhandler
  · apply Or.inr (Or.inr (Or.inr hreplaced))

/-- A download that is paused and resumed. -/
def resumedDownload : List HanderEvent :=
  [.service (.create { taskId := "k", fileKey := "f", filePath := "/d", type := .download }),
    .request .download 0, .goOn 0 none none, .goOn 0 none none, .request .pause 0,
    .request .resumDownload 0, .ends 0 none]

/-- The resumption of the download is answered once. -/
theorem answeredOnce_resumedDownload :
  AnsweredOnce (quiet (fun _ => "")) 2 (System.initial ∅ (fun _ => none) Heap.empty
    (fun _ => some [])) resumedDownload
  := by
  apply answeredOnce
  · decide
  · refine ⟨?_, ?_, ?_, ?_, ?_, ?_, ?_, trivial⟩ <;> decide +kernel
  · decide +kernel
  · decide +kernel

/-- The system when the process starts, with a finished download whose file is there. -/
def downloadedBefore : System :=
  System.initial
    ((Table.empty _).insertOrReplace
      ⟨{ fileKey := "f", filePath := "/a", type := .download, status := .finish }, "a"⟩)
    (fun path => if path = "/a" then some [1] else none) Heap.empty
    (fun key => if key = "f" then some [1] else none)

/-- The file is downloaded again, for a task without `filePath`. -/
def downloadWithoutPath : List HanderEvent :=
  [.service (.create { taskId := "b", fileKey := "f", type := .download }),
    .request .download 0, .goOn 0 none none]

/-- The copy of the file raises an exception, and the download is never answered, though no
resumption is made. -/
theorem not_answeredOnce_downloadWithoutPath :
  Run.Along (System.step (quiet fun _ => "")) RightClass downloadedBefore downloadWithoutPath ∧
    ((Run.final (System.step (quiet fun _ => "")) downloadedBefore
      downloadWithoutPath).requests.cell 0).method.transfers ∧
    ¬ AnsweredOnce (quiet fun _ => "") 0 downloadedBefore downloadWithoutPath
  := by
  refine ⟨⟨?_, ?_, ?_, trivial⟩, ?_, ?_⟩
  · decide +kernel
  · decide +kernel
  · decide +kernel
  · decide +kernel
  · rintro ⟨-, hone | ⟨c, hc, -⟩ | ⟨r, hr, -⟩ | ⟨pre, e, post, hes, r, hmakes, htakes⟩⟩
    · revert hone
      decide +kernel
    · have hnil : (Run.final (System.step (quiet fun _ => "")) downloadedBefore
          downloadWithoutPath).waiting = [] := by decide +kernel
      rw [hnil] at hc
      cases hc
    · have hnext : (Run.final (System.step (quiet fun _ => "")) downloadedBefore
          downloadWithoutPath).transfers.next = 0 := by decide +kernel
      rw [hnext] at hr
      cases hr
    · -- no event of the run makes a request that resumes
      have hresumes : ∀ e ∈ downloadWithoutPath, ∀ s : System, ∀ r ∈ made s e,
          r.method.resumes = false := by
        intro e he s r hr
        simp only [downloadWithoutPath, List.mem_cons, List.not_mem_nil, or_false] at he
        rcases he with rfl | rfl | rfl
        · cases hr
        · simp only [made, Option.mem_def] at hr
          split at hr
          · obtain rfl := Option.some.inj hr
            rfl
          · cases hr
        · cases hr
      rw [takesOver, hresumes e (by simp [hes]) _ r hmakes] at htakes
      cases htakes

end LCCFileService
