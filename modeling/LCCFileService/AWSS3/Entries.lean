import LCCFileService.AWSS3.Genuine
import LCCFileService.AWSS3.Working

/-!
# The entries of `taskDic`

`taskDic` is to hold the transfers that may still end, by the ids of their tasks.  A transfer
is entered by the block that gets it when it has been started, which may come after its end;
it is removed by the completion handler it was started with, under the id of its task, whatever
is entered there; and it is removed neither by a completion handler that a resumption installed
nor when it is cancelled.
-/

namespace LCCFileService

open LCS3Hander

/-- The task id of the task of a request. -/
def System.idOf (q : RequestRef) (s : System) : Option String := (s.taskOfRequest q).taskId

/-- A transfer is in `taskDic`, or waits to be entered. -/
def Tracked (r : TransferRef) (s : System) : Prop :=
  (∃ q, .started q r ∈ s.waiting) ∨ ∃ k, s.taskDic.lookup k = some r

/-- The transfers are transfers of tasks with the ids that `owner` says: those that are entered or
wait to be, and those with completion handlers.  A transfer that may end has one. -/
structure Attributed (owner : TransferRef → Option String) (s : System) : Prop where
  wellFormed : WellFormed s.toCore
  calls : CallsOwned s.toCore
  linked : ∀ q, Made q s → (s.requests.cell q).task < s.tasks.next
  waits : ∀ c ∈ s.waiting, Made c.request s
  held : ∀ r, ∀ handler ∈ (s.transfers.cell r).completionHandler, Made handler.request s
  tracked : ∀ r, Tracked r s → r < s.transfers.next ∧ ((s.transfers.cell r).live →
    (s.transfers.cell r).completionHandler.isSome ∧ (s.transfers.cell r).ended = false)
  started : ∀ q r, .started q r ∈ s.waiting → owner r = s.idOf q
  entries : ∀ k r, s.taskDic.lookup k = some r → owner r = some k
  own : ∀ r, ∀ handler ∈ (s.transfers.cell r).completionHandler,
    s.idOf handler.request = owner r

/-- The transfer becomes no livelier, and keeps its completion handler as long as it may end. -/
structure Fades (t t' : AWSS3TransferUtilityTask) : Prop where
  handler : ∀ handler ∈ t'.completionHandler, handler ∈ t.completionHandler
  live : t'.live → t.live ∧ t'.completionHandler = t.completionHandler ∧ t'.ended = t.ended

namespace Fades

theorem refl (t : AWSS3TransferUtilityTask) :
  Fades t t
  := ⟨fun _ h => h, fun h => ⟨h, rfl, rfl⟩⟩

theorem of_not_live {t t' : AWSS3TransferUtilityTask} (hlive : t'.live = false)
    (hhandler : ∀ handler ∈ t'.completionHandler, handler ∈ t.completionHandler) :
  Fades t t'
  := by
  refine ⟨hhandler, ?_⟩
  rw [hlive]
  rintro ⟨⟩

theorem suspend (t : AWSS3TransferUtilityTask) :
  Fades t t.suspend
  := by
  rw [AWSS3TransferUtilityTask.suspend]
  split
  · next h =>
      refine ⟨fun _ h => h, fun _ => ⟨?_, rfl, ?_⟩⟩
      · simp [AWSS3TransferUtilityTask.live, h]
      · simp [AWSS3TransferUtilityTask.ended, h]
  · apply refl

theorem resume (t : AWSS3TransferUtilityTask) :
  Fades t t.resume
  := by
  rw [AWSS3TransferUtilityTask.resume]
  split
  · next h =>
      refine ⟨fun _ h => h, fun _ => ⟨?_, rfl, ?_⟩⟩
      · simp [AWSS3TransferUtilityTask.live, h]
      · simp [AWSS3TransferUtilityTask.ended, h]
  · apply refl

theorem cancel (t : AWSS3TransferUtilityTask) :
  Fades t t.cancel
  := of_not_live rfl (fun _ h => h)

theorem finish (error : Option NSError) (t : AWSS3TransferUtilityTask) :
  Fades t (t.finish error)
  := by
  cases error with
  | none => exact of_not_live rfl (fun _ h => h)
  | some error => exact of_not_live rfl (fun _ h => h)

end Fades

namespace Attributed

variable {md5 : Bytes → String} {owner : TransferRef → Option String} {s s' : System}

/-- A request for an allocated task keeps the id of its task while the service goes on. -/
theorem idOf_eq (h : Attributed owner s) (hdriven : Driven (quiet md5) s.toState s'.toState)
    {q : RequestRef} (hq : Made q s) (hrequest : s'.requests.cell q = s.requests.cell q) :
  s'.idOf q = s.idOf q
  := by
  rw [System.idOf, System.idOf, System.taskOfRequest, System.taskOfRequest, hrequest]
  apply hdriven.advance.taskId _ (h.linked q hq)

/-- What is attributed stays so if the service goes on, nothing is entered or started, and the
transfers fade. -/
theorem congr (h : Attributed owner s) (hdriven : Driven (quiet md5) s.toState s'.toState)
    (hrequests : s'.requests = s.requests)
    (hwaits : ∀ c ∈ s'.waiting, c ∈ s.waiting ∨ Made c.request s ∧ c.answers)
    (hnext : s'.transfers.next = s.transfers.next)
    (hfades : ∀ r, Fades (s.transfers.cell r) (s'.transfers.cell r))
    (hentries : ∀ k r, s'.taskDic.lookup k = some r → s.taskDic.lookup k = some r) :
  Attributed owner s'
  := by
  have hmade : ∀ q, Made q s' ↔ Made q s := by
    intro q
    rw [Made, Made, hrequests]
  have hid : ∀ q, Made q s → s'.idOf q = s.idOf q := by
    intro q hq
    apply h.idOf_eq hdriven hq
    rw [hrequests]
  have hstarted : ∀ q r, .started q r ∈ s'.waiting → .started q r ∈ s.waiting := by
    intro q r hmem
    rcases hwaits _ hmem with hmem | ⟨-, hanswers⟩
    · apply hmem
    · cases hanswers
  constructor
  · apply hdriven.wellFormed h.wellFormed
  · apply hdriven.callsOwned h.calls
  · intro q hq
    rw [hrequests]
    apply Nat.lt_of_lt_of_le (h.linked q ((hmade q).mp hq)) hdriven.advance.tasks_le
  · intro c hc
    rw [hmade]
    rcases hwaits c hc with hc | ⟨hc, -⟩
    · apply h.waits c hc
    · apply hc
  · intro r handler hhandler
    rw [hmade]
    apply h.held r handler ((hfades r).handler handler hhandler)
  · intro r htracked
    have hbefore : Tracked r s := by
      rcases htracked with ⟨q, hq⟩ | ⟨k, hk⟩
      · apply Or.inl ⟨q, hstarted q r hq⟩
      · apply Or.inr ⟨k, hentries k r hk⟩
    obtain ⟨hlt, hlive⟩ := h.tracked r hbefore
    rw [hnext]
    refine ⟨hlt, ?_⟩
    intro hlive'
    obtain ⟨hlive'', hhandler, hended⟩ := (hfades r).live hlive'
    rw [hhandler, hended]
    apply hlive hlive''
  · intro q r hmem
    rw [hid q (h.waits _ (hstarted q r hmem))]
    apply h.started q r (hstarted q r hmem)
  · intro k r hk
    apply h.entries k r (hentries k r hk)
  · intro r handler hhandler
    have hhandler' := (hfades r).handler handler hhandler
    rw [hid _ (h.held r handler hhandler')]
    apply h.own r handler hhandler'

/-- Acts for a request attribute nothing. -/
theorem works (h : Attributed owner s) {q : RequestRef} (hq : Made q s)
    (hworks : Works (quiet md5) q s s') :
  Attributed owner s'
  := by
  obtain ⟨htransfers, htaskDic, -, hstarted⟩ := hworks.still
  obtain ⟨hrequests, hwaits⟩ := hworks.waits
  apply h.congr hworks.driven hrequests
  · intro c hc
    cases c with
    | started q' r => apply Or.inl (hstarted q' r hc)
    | _ =>
        rcases hwaits _ hc with hc | heq
        · apply Or.inl hc
        · refine Or.inr ⟨?_, rfl⟩
          rw [heq]
          apply hq
  · rw [htransfers]
  · intro r
    rw [htransfers]
    apply Fades.refl
  · rw [htaskDic]
    exact fun _ _ hk => hk

/-- What the service does by itself attributes nothing. -/
theorem mapState (h : Attributed owner s) {f : State → State}
    (hdriven : Driven (quiet md5) s.toState (f s.toState)) :
  Attributed owner (s.mapState f)
  := h.congr hdriven rfl (fun _ hc => Or.inl hc) rfl (fun _ => Fades.refl _) (fun _ _ hk => hk)

theorem mapDisk (h : Attributed owner s) (f : Disk String Bytes → Disk String Bytes) :
  Attributed owner (s.mapDisk f)
  := by
  have hdisk : Driven (quiet fun _ => "") s.toState
      (s.toState.mapCore (fun c => { c with disk := f c.disk })) := Driven.refl.disk f
  apply h.mapState hdisk

/-- Where only the handler changes. -/
theorem hander (h : Attributed owner s) (hstate : s'.toState = s.toState)
    (hrequests : s'.requests = s.requests) (hwaiting : ∀ c ∈ s'.waiting, c ∈ s.waiting)
    (hnext : s'.transfers.next = s.transfers.next)
    (hfades : ∀ r, Fades (s.transfers.cell r) (s'.transfers.cell r))
    (hentries : ∀ k r, s'.taskDic.lookup k = some r → s.taskDic.lookup k = some r) :
  Attributed owner s'
  := by
  have hdriven : Driven (quiet fun _ => "") s.toState s'.toState := by
    rw [hstate]
    apply Driven.refl
  apply h.congr hdriven hrequests (fun c hc => Or.inl (hwaiting c hc)) hnext hfades hentries

theorem dropWaiting (h : Attributed owner s) (i : Nat) :
  Attributed owner (s.dropWaiting i)
  := h.hander rfl rfl (fun _ hc => List.mem_of_mem_eraseIdx hc) rfl (fun _ => Fades.refl _)
      (fun _ _ hk => hk)

/-- A transfer fades. -/
theorem setTransfer (h : Attributed owner s) (r : TransferRef)
    {f : AWSS3TransferUtilityTask → AWSS3TransferUtilityTask}
    (hf : Fades (s.transfers.cell r) (f (s.transfers.cell r))) :
  Attributed owner (s.setTransfer r f)
  := by
  refine h.hander rfl rfl (fun _ hc => hc) rfl ?_ (fun _ _ hk => hk)
  intro r'
  rw [System.cell_setTransfer]
  split
  · next heq => rw [heq]; exact hf
  · apply Fades.refl

/-- A message is sent to a transfer, which fades. -/
theorem send (h : Attributed owner s) (r : TransferRef) (message : TransferMessage)
    {f : AWSS3TransferUtilityTask → AWSS3TransferUtilityTask}
    (hf : Fades (s.transfers.cell r) (f (s.transfers.cell r))) :
  Attributed owner (s.send r message f)
  := (h.setTransfer r hf).hander rfl rfl (fun _ hc => hc) rfl (fun _ => Fades.refl _)
      (fun _ _ hk => hk)

theorem removeObject (h : Attributed owner s) (q : RequestRef) :
  Attributed owner (LCS3Hander.removeObject q s)
  := by
  rw [LCS3Hander.removeObject]
  split
  · next taskId _ =>
      refine h.hander rfl rfl (fun _ hc => hc) rfl (fun _ => Fades.refl _) ?_
      intro k r hk
      rw [System.toHander_mapHander, Dictionary.lookup_erase] at hk
      split at hk
      · cases hk
      · apply hk
  · have hraise : Driven (quiet fun _ => "") s.toState s.toState.raise := Driven.refl.raise
    apply h.mapState hraise

/-- A transfer that has ended completes. -/
theorem complete (h : Attributed owner s) {r : TransferRef}
    (hlive : (s.transfers.cell r).live = false) :
  Attributed owner (LCS3Hander.complete (quiet md5) r s)
  := by
  rw [LCS3Hander.complete]
  split
  · next handler hhandler =>
      have hmade := h.held r handler hhandler
      have hworks := @Works.answerCompletion (quiet md5) handler.request
        (s.transfers.cell r).kind (s.transfers.cell r).error s
      have hcell : (runCompletionHandler (quiet md5) (s.transfers.cell r).kind handler
          (s.transfers.cell r).error s).transfers = s.transfers :=
        (@Pledges.runCompletionHandler (quiet md5) (s.transfers.cell r).kind handler
          (s.transfers.cell r).error s).transfers
      have hrun : Attributed owner (runCompletionHandler (quiet md5) (s.transfers.cell r).kind
          handler (s.transfers.cell r).error s) := by
        rw [runCompletionHandler]
        split
        · apply (h.works hmade hworks).removeObject handler.request
        · apply h.works hmade hworks
      apply hrun.setTransfer
      rw [hcell]
      refine Fades.of_not_live hlive ?_
      rintro handler' ⟨⟩
  · apply h

/-- What a transfer has transferred attributes nothing. -/
theorem transferred (h : Attributed owner s) (t : AWSS3TransferUtilityTask) :
  Attributed owner (LCS3Hander.transferred t s)
  := by
  rw [LCS3Hander.transferred]
  split
  · split
    · apply h
    · apply h.mapDisk _
  · exact h.hander rfl rfl (fun _ hc => hc) rfl (fun _ => Fades.refl _) (fun _ _ hk => hk)

/-- A transfer ends. -/
theorem endTransfer (h : Attributed owner s) (r : TransferRef) (error : Option NSError) :
  Attributed owner (LCS3Hander.endTransfer (quiet md5) r error s)
  := by
  have hmoved : Attributed owner
      (if error.isSome then s else LCS3Hander.transferred (s.transfers.cell r) s) := by
    split
    · apply h
    · apply h.transferred _
  rw [LCS3Hander.endTransfer]
  apply (hmoved.setTransfer r (Fades.finish error _)).complete
  rw [System.cell_setTransfer, if_pos rfl]
  cases error with
  | none => rfl
  | some error => rfl

/-- A completion handler of a request for the task of the transfer is installed. -/
theorem install (h : Attributed owner s) {q : RequestRef} (hq : Made q s) {r : TransferRef}
    (hid : s.idOf q = owner r) :
  Attributed owner (s.send r .setCompletionHandler
    (fun t => { t with completionHandler := some ⟨q, false⟩ }))
  := by
  have hcell : ∀ r', (s.send r .setCompletionHandler
      (fun t => { t with completionHandler := some ⟨q, false⟩ })).transfers.cell r' =
      if r' = r then { s.transfers.cell r with completionHandler := some ⟨q, false⟩ }
      else s.transfers.cell r' := System.cell_send r _ _ s
  constructor
  · apply h.wellFormed
  · apply h.calls
  · apply h.linked
  · apply h.waits
  · intro r' handler hhandler
    rw [hcell] at hhandler
    split at hhandler
    · obtain rfl := Option.some.inj hhandler
      apply hq
    · apply h.held r' handler hhandler
  · intro r' htracked
    obtain ⟨hlt, hlive⟩ := h.tracked r' htracked
    refine ⟨hlt, ?_⟩
    rw [hcell]
    split
    · next heq =>
        subst heq
        exact fun hlive' => ⟨rfl, (hlive hlive').2⟩
    · apply hlive
  · apply h.started
  · apply h.entries
  · intro r' handler hhandler
    rw [hcell] at hhandler
    split at hhandler
    · next heq =>
        obtain rfl := Option.some.inj hhandler
        rw [heq]
        apply hid
    · apply h.own r' handler hhandler

/-- A resumption installs its completion handler in the transfer of the task. -/
theorem setCompletionHandler (h : Attributed owner s) {q : RequestRef} (hq : Made q s)
    {r : TransferRef} {k : String} (hk : s.taskDic.lookup k = some r) (hid : s.idOf q = some k) :
  Attributed owner (LCS3Hander.setCompletionHandler (quiet md5) r ⟨q, false⟩ s)
  := by
  have hinstall := h.install hq (hid.trans (h.entries k r hk).symm)
  rw [LCS3Hander.setCompletionHandler]
  split
  · next hended =>
      apply hinstall.complete
      have hcell := System.cell_send r .setCompletionHandler
        (fun t => { t with completionHandler := some ⟨q, false⟩ }) s r
      rw [if_pos rfl] at hcell
      rw [hcell] at hended ⊢
      by_contra hlive
      have hunended := ((h.tracked r (Or.inr ⟨k, hk⟩)).2 (Bool.not_eq_false _ ▸ hlive)).2
      apply Bool.false_ne_true (hunended.symm.trans hended)
  · apply hinstall

theorem awsTask_eq_some {q : RequestRef} {r : TransferRef} (h : awsTask q s = some r) :
  ∃ k, s.idOf q = some k ∧ s.taskDic.lookup k = some r
  := Option.bind_eq_some_iff.mp h

theorem resumTask (h : Attributed owner s) {q : RequestRef} (hq : Made q s)
    (takes : TransferKind → Bool) :
  Attributed owner (LCS3Hander.resumTask (quiet md5) takes q s)
  := by
  rw [LCS3Hander.resumTask]
  split
  · next r hr =>
      obtain ⟨k, hid, hk⟩ := awsTask_eq_some hr
      split
      · apply (h.setCompletionHandler hq hk hid).send r .resume (Fades.resume _)
      · apply h
  · apply h.works hq (Works.refl.finish _)

/-- A request is entered. -/
theorem addRequest (h : Attributed owner s) {r : Request}
    (hr : r.method.transfers → r.task < s.tasks.next) :
  Attributed owner (s.addRequest r)
  := by
  have hcell : ∀ q < s.requests.next, (s.addRequest r).requests.cell q = s.requests.cell q :=
    fun q hq => Heap.cell_alloc_of_lt r hq
  have hnew : (s.addRequest r).requests.cell s.requests.next = r := Heap.cell_alloc_next _ _
  have hid : ∀ q, Made q s → (s.addRequest r).idOf q = s.idOf q := by
    rintro q ⟨hlt, -⟩
    rw [System.idOf, System.idOf, System.taskOfRequest, System.taskOfRequest, hcell q hlt]
    rfl
  constructor
  · apply h.wellFormed
  · apply h.calls
  · rintro q ⟨hlt, hmethod⟩
    rcases Nat.lt_succ_iff_lt_or_eq.mp hlt with hlt | rfl
    · rw [hcell q hlt] at hmethod ⊢
      apply h.linked q ⟨hlt, hmethod⟩
    · rw [hnew] at hmethod ⊢
      apply hr hmethod
  · exact fun c hc => (h.waits c hc).addRequest
  · exact fun r handler hhandler => (h.held r handler hhandler).addRequest
  · apply h.tracked
  · intro q r hmem
    rw [hid q (h.waits _ hmem)]
    apply h.started q r hmem
  · apply h.entries
  · intro r handler hhandler
    rw [hid _ (h.held r handler hhandler)]
    apply h.own r handler hhandler

theorem request (h : Attributed owner s) {r : Request}
    (hr : r.method.transfers → r.task < s.tasks.next) :
  Attributed owner (LCS3Hander.request (quiet md5) r s)
  := by
  have hnew : (s.addRequest r).requests.cell s.requests.next = r := Heap.cell_alloc_next _ _
  have hadd := h.addRequest hr
  have hmade : r.method.transfers → Made s.requests.next (s.addRequest r) := by
    intro hmethod
    refine ⟨Nat.lt_succ_self _, ?_⟩
    rwa [hnew]
  rw [LCS3Hander.request, callMethod, hnew]
  split
  · next hmethod =>
      have hreplies := @Replies.lcFileNetHanderUpload (quiet md5) s.requests.next (s.addRequest r)
      apply hadd.works (hmade (by rw [hmethod]; rfl)) (Works.of_replies hreplies)
  · next hmethod =>
      have hreplies := @Replies.lcFileNetHanderDownload (quiet md5) s.requests.next (s.addRequest r)
      apply hadd.works (hmade (by rw [hmethod]; rfl)) (Works.of_replies hreplies)
  · next hmethod => exact hadd.resumTask (hmade (by rw [hmethod]; rfl)) _
  · next hmethod => exact hadd.resumTask (hmade (by rw [hmethod]; rfl)) _
  · rw [lcFileNetHanderCancelTask]
    split
    · apply hadd.send _ _ (Fades.cancel _)
    · apply hadd
  · rw [lcFileNetHanderPauseTask]
    split
    · apply hadd.send _ _ (Fades.suspend _)
    · apply hadd

/-- A transfer is started, and waits to be entered. -/
theorem begin (h : Attributed owner s) {q : RequestRef} (hq : Made q s) (kind : TransferKind)
    (key path : String) :
  Attributed (Function.update owner s.transfers.next (s.idOf q))
    ((s.mapHander (fun h => { h with
      transfers := h.transfers.alloc
        { kind, key, path, completionHandler := some ⟨q, true⟩ } })).wait
      (.started q s.transfers.next))
  := by
  have howner : ∀ r < s.transfers.next,
      Function.update owner s.transfers.next (s.idOf q) r = owner r := by
    intro r hr
    apply Function.update_of_ne (Nat.ne_of_lt hr) _ _
  have hcell := Heap.cell_alloc
    { kind, key, path, completionHandler := some ⟨q, true⟩ } s.transfers
  have hstarted : ∀ q' r, .started q' r ∈ s.waiting ++ [.started q s.transfers.next] →
      .started q' r ∈ s.waiting ∨ q' = q ∧ r = s.transfers.next := by
    intro q' r hmem
    rcases List.mem_append.mp hmem with hmem | hmem
    · apply Or.inl hmem
    · obtain ⟨rfl, rfl⟩ := Continuation.started.inj (List.mem_singleton.mp hmem)
      apply Or.inr ⟨rfl, rfl⟩
  have hlt : ∀ r, Tracked r s → r < s.transfers.next := fun r hr => (h.tracked r hr).1
  constructor
  · apply h.wellFormed
  · apply h.calls
  · apply h.linked
  · intro c hc
    rcases List.mem_append.mp hc with hc | hc
    · apply h.waits c hc
    · obtain rfl := List.mem_singleton.mp hc
      apply hq
  · intro r handler hhandler
    rw [System.wait, System.toHander_mapHander, System.toHander_mapHander, hcell] at hhandler
    split at hhandler
    · obtain rfl := Option.some.inj hhandler
      apply hq
    · apply h.held r handler hhandler
  · intro r htracked
    rw [System.wait, System.toHander_mapHander, System.toHander_mapHander, hcell]
    by_cases heq : r = s.transfers.next
    · rw [if_pos heq, heq]
      exact ⟨Nat.lt_succ_self _, fun _ => ⟨rfl, rfl⟩⟩
    · rw [if_neg heq]
      have hbefore : Tracked r s := by
        rcases htracked with ⟨q', hmem⟩ | ⟨k, hk⟩
        · rcases hstarted q' r hmem with hmem | ⟨-, heq'⟩
          · apply Or.inl ⟨q', hmem⟩
          · apply absurd heq' heq
        · apply Or.inr ⟨k, hk⟩
      obtain ⟨hr, hlive⟩ := h.tracked r hbefore
      exact ⟨Nat.lt_succ_of_lt hr, hlive⟩
  · intro q' r hmem
    rcases hstarted q' r hmem with hmem | ⟨rfl, rfl⟩
    · rw [howner r (hlt r (Or.inl ⟨q', hmem⟩))]
      apply h.started q' r hmem
    · apply Function.update_self _ _ _
  · intro k r hk
    rw [howner r (hlt r (Or.inr ⟨k, hk⟩))]
    apply h.entries k r hk
  · intro r handler hhandler
    rw [System.wait, System.toHander_mapHander, System.toHander_mapHander, hcell] at hhandler
    split at hhandler
    · next heq =>
        obtain rfl := Option.some.inj hhandler
        rw [heq]
        apply (Function.update_self s.transfers.next (s.idOf q) owner).symm
    · next hne =>
        rw [Function.update_of_ne hne]
        apply h.own r handler hhandler

/-- A started transfer that waits to be entered is entered. -/
theorem setObject (h : Attributed owner s) {i : Nat} {q : RequestRef} {r : TransferRef}
    (hi : s.waiting[i]? = some (.started q r)) :
  Attributed owner (LCS3Hander.setObject q r (s.dropWaiting i))
  := by
  have hdrop := h.dropWaiting i
  have hmem := List.mem_of_getElem? hi
  rw [LCS3Hander.setObject]
  split
  · next k hk =>
      have hlookup : ∀ k' r', (AList.insert k r s.taskDic).lookup k' = some r' →
          k' = k ∧ r' = r ∨ s.taskDic.lookup k' = some r' := by
        intro k' r' h
        rw [Dictionary.lookup_insert] at h
        split at h
        · next heq => exact Or.inl ⟨heq, (Option.some.inj h).symm⟩
        · apply Or.inr h
      constructor
      · apply hdrop.wellFormed
      · apply hdrop.calls
      · apply hdrop.linked
      · apply hdrop.waits
      · apply hdrop.held
      · intro r' htracked
        apply h.tracked r'
        rcases htracked with ⟨q', hq'⟩ | ⟨k', hk'⟩
        · apply Or.inl ⟨q', List.mem_of_mem_eraseIdx hq'⟩
        · rcases hlookup k' r' hk' with ⟨-, rfl⟩ | hk'
          · apply Or.inl ⟨q, hmem⟩
          · apply Or.inr ⟨k', hk'⟩
      · apply hdrop.started
      · intro k' r' hk'
        rcases hlookup k' r' hk' with ⟨rfl, rfl⟩ | hk'
        · apply (h.started q r' hmem).trans hk
        · apply h.entries k' r' hk'
      · apply hdrop.own
  · have hraise : Driven (quiet fun _ => "") s.toState s.toState.raise := Driven.refl.raise
    apply hdrop.mapState hraise

/-- Where the process starts nothing is attributed. -/
theorem initial (owner : TransferRef → Option String) (db : TaskTable) (disk : Disk String Bytes)
    (transfers : Heap AWSS3TransferUtilityTask) (bucket : Disk String Bytes) :
  Attributed owner (System.initial db disk transfers bucket)
  := by
  constructor
  · apply WellFormed.initial
  · rintro r hr
    cases hr
  · rintro q ⟨hq, -⟩
    cases hq
  · rintro c ⟨⟩
  · rintro r handler ⟨⟩
  · rintro r (⟨q, ⟨⟩⟩ | ⟨k, ⟨⟩⟩)
  · rintro q r ⟨⟩
  · rintro k r ⟨⟩
  · rintro r handler ⟨⟩

/-- What goes on attributes no other transfer than one it starts. -/
theorem goOn (h : Attributed owner s) {i : Nat} {c : Continuation} (hi : s.waiting[i]? = some c)
    (url : Option String) (error : Option NSError) :
  ∃ owner', Attributed owner' (LCS3Hander.goOn (quiet md5) url error c (s.dropWaiting i))
  := by
  have hmade := h.waits c (List.mem_of_getElem? hi)
  have hdrop := h.dropWaiting i
  by_cases hstart : ∃ q kind key path, c = .start q kind key path
  · obtain ⟨q, kind, key, path, rfl⟩ := hstart
    cases error with
    | some error => exact ⟨owner, hdrop.works hmade (Works.refl.finish _)⟩
    | none => exact ⟨_, hdrop.begin hmade kind key path⟩
  · by_cases hstarted : ∃ q r, c = .started q r
    · obtain ⟨q, r, rfl⟩ := hstarted
      exact ⟨owner, h.setObject hi⟩
    · use owner
      apply hdrop.works hmade
      apply Works.goOn
      · intro q kind key path hc
        apply hstart ⟨q, kind, key, path, hc⟩
      · intro q r hc
        apply hstarted ⟨q, r, hc⟩

/-- A request that is made is one for an allocated task. -/
theorem task_of_made (h : Attributed owner s) {e : HanderEvent} {r : Request}
    (hr : made s e = some r) :
  r.method.transfers → r.task < s.tasks.next
  := by
  intro hmethod
  cases e with
  | call c =>
      rw [made] at hr
      split at hr
      · next huncalled =>
          obtain rfl := Option.some.inj hr
          rw [uncalled, Bool.and_eq_true, decide_eq_true_eq] at huncalled
          apply h.wellFormed.owned _ (h.calls c huncalled.1 hmethod)
      · cases hr
  | request method task =>
      rw [made] at hr
      split at hr
      · next htask =>
          obtain rfl := Option.some.inj hr
          apply htask
      · cases hr
  | service e => cases hr
  | goOn i url error => cases hr
  | ends r error => cases hr
  | body r body => cases hr
  | progress r completed total => cases hr
  | loadHistory uploadTask multiPartUploadTask downloadTask => cases hr

/-- Without restored history all transfers stay attributed. -/
theorem step (h : Attributed owner s) {e : HanderEvent}
    (he : ∀ uploadTask multiPartUploadTask downloadTask,
      e ≠ .loadHistory uploadTask multiPartUploadTask downloadTask) :
  ∃ owner', Attributed owner' (System.step (quiet md5) s e)
  := by
  cases e with
  | service e =>
      by_cases hrestart : e = .restart
      · subst hrestart
        exact ⟨owner, initial owner _ _ _ _⟩
      · use owner
        have hstate : Attributed owner
            (s.mapState (fun s => LCCFileService.step (quiet md5) s e)) := by
          apply h.mapState (f := fun s => LCCFileService.step (quiet md5) s e)
          apply Driven.refl.step hrestart
        cases e with
        | restart => apply absurd rfl hrestart
        | progress r => apply h
        | finish r error => apply h
        | _ => apply hstate
  | call r =>
      use owner
      rw [System.step]
      split
      · next huncalled =>
          apply h.request
          apply h.task_of_made (e := .call r)
          rw [made, if_pos huncalled]
      · apply h
  | request method task =>
      use owner
      rw [System.step]
      split
      · next htask => exact h.request (fun _ => htask)
      · apply h
  | goOn i url error =>
      rw [System.step]
      split
      · next c hi =>
          split
          · apply h.goOn hi url error
          · exact ⟨owner, h⟩
      · exact ⟨owner, h⟩
  | ends r error =>
      use owner
      rw [System.step]
      split
      · apply h.endTransfer r error
      · apply h
  | body r body =>
      use owner
      rw [System.step]
      split
      · apply h.mapDisk
      · apply h
  | progress r completed total =>
      use owner
      rw [System.step]
      split
      · rw [progressBlock]
        split
        · next handler hhandler =>
            apply h.works (h.held r handler hhandler) (Works.progressed _ _ s)
        · apply h
      · apply h
  | loadHistory uploadTask multiPartUploadTask downloadTask =>
      apply absurd rfl (he uploadTask multiPartUploadTask downloadTask)

end Attributed

end LCCFileService
