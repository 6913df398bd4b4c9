import LCCFileService.Library.Simulation
import LCCFileService.FileNet.InFlight
import LCCFileService.FileNet.Persistence
import LCCFileService.AWSS3.Genuine
import LCCFileService.AWSS3.Working

/-!
# The handler among all handlers

The service is modelled with a handler that may do anything at any time.  Together with
`LCS3Hander` and S3 it only does what it can do with such a handler: whatever the system does,
the service does by a run of its own events, in which the handler calls the blocks it was given,
sets properties of tasks other than those that say which file a task is about, writes files, and
raises exceptions.  What holds in every run of the service holds in every run of the system.
-/

namespace LCCFileService

open LCS3Hander

/-! ### Acts of the handler -/

/-- The event is an act of the handler: it calls a block, sets properties of a task other than its
identity and its path, writes a file, or raises the exception that a dictionary raises for the key
nil. -/
def ActOfHander (s : State) : Event → Prop
  | .progress _ | .finish _ _ | .edit _ _ => True
  | .set task t =>
      t.identity = (s.tasks.cell task).identity ∧ t.filePath = (s.tasks.cell task).filePath
  | .startTask task => (s.tasks.cell task).taskId = none
  | _ => False

/-- From `s` the system comes to `s'` by acts of the handler for the request `q`, and where the
finish block of the request is called, the call of the service it is has been answered. -/
structure Acts (md5 : Bytes → String) (q : RequestRef) (s s' : System) : Prop where
  service : Run.Reaches (step (quiet md5)) ActOfHander s.toState s'.toState
  requests : s'.requests = s.requests
  active : ∀ q', Active q' s' → Active q' s ∨ q' = q
  answers : ∀ a ∈ s'.answers, a ∈ s.answers ∨ a.1 = q ∧
    ∀ r, (s.requests.cell q).call = some r → r < s.calls.next → (s'.calls.cell r).answered

/-- The task of the request has been allocated. -/
def Rooted (q : RequestRef) (s : System) : Prop := (s.requests.cell q).task < s.tasks.next

namespace Acts

variable {md5 : Bytes → String} {q : RequestRef} {s s' s'' : System}

/-- No act takes an answer back. -/
theorem keepsAnswers (h : Acts md5 q s s') :
  KeepsAnswers s.toCore s'.toCore
  := by
  apply h.service.invariant (I := fun t => KeepsAnswers s.toCore t.toCore) _ (.of_eq rfl)
  intro t e hkeeps hact
  apply hkeeps.trans (KeepsAnswers.step _)
  rintro rfl
  cases hact

theorem refl (s : System) :
  Acts md5 q s s
  := ⟨.refl _, rfl, fun _ h => Or.inl h, fun _ h => Or.inl h⟩

theorem trans (h : Acts md5 q s s') (h' : Acts md5 q s' s'') :
  Acts md5 q s s''
  := by
  constructor
  · apply h.service.trans h'.service
  · apply h'.requests.trans h.requests
  · intro q' hq'
    obtain hq' | rfl := h'.active q' hq'
    · apply h.active q' hq'
    · apply Or.inr rfl
  · intro a ha
    have hkeeps := h.keepsAnswers
    obtain ha | ⟨hq, hanswered⟩ := h'.answers a ha
    · obtain ha | ⟨hq, hanswered⟩ := h.answers a ha
      · apply Or.inl ha
      · refine Or.inr ⟨hq, ?_⟩
        intro r hr hlt
        apply h'.keepsAnswers.2 r (Nat.lt_of_lt_of_le hlt hkeeps.1) (hanswered r hr hlt)
    · refine Or.inr ⟨hq, ?_⟩
      intro r hr hlt
      rw [h.requests] at hanswered
      apply hanswered r hr (Nat.lt_of_lt_of_le hlt hkeeps.1)

/-- Acts of the handler on the service alone. -/
theorem of_reaches (h : Run.Reaches (step (quiet md5)) ActOfHander s.toState s'.toState)
    (hhander : s'.toHander = s.toHander) :
  Acts md5 q s s'
  := by
  constructor
  · apply h
  · rw [hhander]
  · intro q' hq'
    rw [Active, hhander] at hq'
    apply Or.inl hq'
  · rw [hhander]
    exact fun _ ha => Or.inl ha

/-- Changes of the handler alone. -/
theorem of_hander (hstate : s'.toState = s.toState) (hrequests : s'.requests = s.requests)
    (hanswers : s'.answers = s.answers) (hactive : ∀ q', Active q' s' → Active q' s ∨ q' = q) :
  Acts md5 q s s'
  := by
  refine ⟨?_, hrequests, hactive, ?_⟩
  · rw [hstate]
    apply Run.Reaches.refl
  · rw [hanswers]
    exact fun _ ha => Or.inl ha

/-- Acts of the handler allocate tasks only. -/
theorem tasks_le (h : Acts md5 q s s') :
  s.tasks.next ≤ s'.tasks.next
  := by
  apply h.service.invariant (I := fun t => s.tasks.next ≤ t.tasks.next) _ (Nat.le_refl _)
  intro t e hle hact
  apply Nat.le_trans hle
  apply (Advance.step t _).tasks_le
  rintro rfl
  cases hact

theorem rooted (h : Acts md5 q s s') {q' : RequestRef} (hq : Rooted q' s) :
  Rooted q' s'
  := by
  rw [Rooted, h.requests]
  apply Nat.lt_of_lt_of_le hq h.tasks_le

/-! ### Single acts -/

/-- The service alone does what it does upon an act of the handler. -/
theorem single {e : Event} (he : ActOfHander s.toState e) :
  Acts md5 q s (s.mapState (fun s => step (quiet md5) s e))
  := of_reaches (.single he) rfl

theorem finishCallback (error : Option NSError) (s : System) :
  Acts md5 q s (LCS3Hander.finishCallback (quiet md5) q error s)
  := by
  have hmem : ∀ a ∈ s.answers ++ [(q, error)], a ∈ s.answers ∨ a.1 = q := by
    intro a ha
    obtain ha | ha := List.mem_append.mp ha
    · apply Or.inl ha
    · obtain rfl := List.mem_singleton.mp ha
      apply Or.inr rfl
  rw [LCS3Hander.finishCallback]
  split
  · next r hr =>
      constructor
      · exact Run.Reaches.single (e := Event.finish r error) trivial
      · rfl
      · exact fun _ hq' => Or.inl hq'
      · intro a ha
        obtain ha | hq := hmem a ha
        · apply Or.inl ha
        · refine Or.inr ⟨hq, ?_⟩
          intro r' hr' hlt
          obtain rfl := Option.some.inj (hr.symm.trans hr')
          apply KeepsAnswers.answered_finish hlt error
  · next hnone =>
      constructor
      · apply Run.Reaches.refl
      · rfl
      · exact fun _ hq' => Or.inl hq'
      · intro a ha
        obtain ha | hq := hmem a ha
        · apply Or.inl ha
        · refine Or.inr ⟨hq, ?_⟩
          intro r' hr'
          cases hnone.symm.trans hr'

theorem progressCallback (s : System) :
  Acts md5 q s (LCS3Hander.progressCallback (quiet md5) q s)
  := by
  rw [LCS3Hander.progressCallback]
  split
  · exact single trivial
  · apply refl

theorem setTaskOf (hq : Rooted q s) {f : LCFileNetTask → LCFileNetTask}
    (hf : (f (s.taskOfRequest q)).identity = (s.taskOfRequest q).identity ∧
      (f (s.taskOfRequest q)).filePath = (s.taskOfRequest q).filePath) :
  Acts md5 q s (s.setTaskOf q f)
  := by
  have hset : s.setTaskOf q f = s.mapState (fun t => step (quiet md5) t
      (.set (s.requests.cell q).task (f (s.taskOfRequest q)))) := by
    apply System.mapState_congr
    rw [Rooted] at hq
    rw [step, if_pos hq]
    rfl
  rw [hset]
  exact single hf

/-- A file is written, or removed. -/
theorem update (path : String) (content : Option Bytes) (s : System) :
  Acts md5 q s (s.mapDisk (fun disk => Function.update disk path content))
  := single (e := .edit path content) trivial

theorem wait {c : Continuation} (hc : c.request = q) (s : System) :
  Acts md5 q s (s.wait c)
  := by
  refine of_hander rfl rfl rfl ?_
  rintro q' (⟨c', hc', rfl⟩ | htransfer)
  · obtain hc' | hc' := List.mem_append.mp hc'
    · apply Or.inl (Or.inl ⟨c', hc', rfl⟩)
    · obtain rfl := List.mem_singleton.mp hc'
      apply Or.inr hc
  · apply Or.inl (Or.inr htransfer)

/-- A dictionary is asked to do something with the key nil. -/
theorem raise (hq : Rooted q s) (hid : (s.taskOfRequest q).taskId = none) :
  Acts md5 q s (s.mapState State.raise)
  := by
  have hraise : s.mapState State.raise = s.mapState (fun t => step (quiet md5) t
      (.startTask (s.requests.cell q).task)) := by
    apply System.mapState_congr
    rw [System.taskOfRequest] at hid
    rw [Rooted] at hq
    rw [step, if_pos hq, LCFileNetService.lcStartTask]
    simp only [hid]
  rw [hraise]
  exact single hid

theorem of_replies (h : Replies (quiet md5) q s s') :
  Acts md5 q s s'
  := by
  induction h with
  | refl => apply refl
  | finish _ error ih => apply ih.trans (finishCallback error _)
  | wait _ hq hc ih => apply ih.trans (wait hq _)

/-! ### Transfers -/

/-- A transfer changes, and gets at most a completion handler of the request. -/
theorem setTransfer {r : TransferRef} {f : AWSS3TransferUtilityTask → AWSS3TransferUtilityTask}
    (hf : ∀ handler ∈ (f (s.transfers.cell r)).completionHandler,
      handler ∈ (s.transfers.cell r).completionHandler ∨ handler.request = q) :
  Acts md5 q s (s.setTransfer r f)
  := by
  refine of_hander rfl rfl rfl ?_
  rintro q' (hwaiting | ⟨r', handler, hhandler, rfl⟩)
  · apply Or.inl (Or.inl hwaiting)
  · rw [System.cell_setTransfer] at hhandler
    split at hhandler
    · obtain hhandler | hq := hf handler hhandler
      · apply Or.inl (Or.inr ⟨r, handler, hhandler, rfl⟩)
      · apply Or.inr hq
    · apply Or.inl (Or.inr ⟨r', handler, hhandler, rfl⟩)

theorem send {r : TransferRef} {message : TransferMessage}
    {f : AWSS3TransferUtilityTask → AWSS3TransferUtilityTask}
    (hf : ∀ handler ∈ (f (s.transfers.cell r)).completionHandler,
      handler ∈ (s.transfers.cell r).completionHandler ∨ handler.request = q) :
  Acts md5 q s (s.send r message f)
  := (setTransfer hf).trans (of_hander rfl rfl rfl (fun _ h => Or.inl h))

theorem removeObject (hq : Rooted q s) :
  Acts md5 q s (LCS3Hander.removeObject q s)
  := by
  rw [LCS3Hander.removeObject]
  split
  · exact of_hander rfl rfl rfl (fun _ h => Or.inl h)
  · next hid => apply raise hq hid

theorem setObject (hq : Rooted q s) (r : TransferRef) :
  Acts md5 q s (LCS3Hander.setObject q r s)
  := by
  rw [LCS3Hander.setObject]
  split
  · exact of_hander rfl rfl rfl (fun _ h => Or.inl h)
  · next hid => apply raise hq hid

theorem setMd5 (hq : Rooted q s) :
  Acts md5 q s (LCS3Hander.setMd5 (quiet md5) q s)
  := setTaskOf hq ⟨rfl, rfl⟩

theorem answerCompletion (hq : Rooted q s) (kind : TransferKind) (error : Option NSError) :
  Acts md5 q s (LCS3Hander.answerCompletion (quiet md5) kind q error s)
  := by
  rw [LCS3Hander.answerCompletion]
  split
  · apply finishCallback
  · split
    · apply (setMd5 hq).trans (finishCallback none _)
    · exact wait (c := .url q) rfl s

/-- The completion handler of a request runs, if the transfer has one. -/
theorem complete {r : TransferRef}
    (hr : ∀ handler ∈ (s.transfers.cell r).completionHandler, handler.request = q ∧ Rooted q s) :
  Acts md5 q s (LCS3Hander.complete (quiet md5) r s)
  := by
  rw [LCS3Hander.complete]
  split
  · next handler hhandler =>
      obtain ⟨rfl, hq⟩ := hr handler hhandler
      have hanswer := @answerCompletion md5 _ s hq (s.transfers.cell r).kind
        (s.transfers.cell r).error
      have hrun : Acts md5 handler.request s (runCompletionHandler (quiet md5)
          (s.transfers.cell r).kind handler (s.transfers.cell r).error s) := by
        rw [runCompletionHandler]
        split
        · apply hanswer.trans (removeObject (hanswer.rooted hq))
        · apply hanswer
      apply hrun.trans
      apply setTransfer
      rintro handler ⟨⟩
  · apply refl

theorem setCompletionHandler (hq : Rooted q s) (r : TransferRef) (removes : Bool) :
  Acts md5 q s (LCS3Hander.setCompletionHandler (quiet md5) r ⟨q, removes⟩ s)
  := by
  have hsend : Acts md5 q s (s.send r .setCompletionHandler
      (fun t => { t with completionHandler := some ⟨q, removes⟩ })) := by
    apply send
    intro handler hhandler
    obtain rfl := Option.some.inj hhandler
    apply Or.inr rfl
  rw [LCS3Hander.setCompletionHandler]
  split
  · apply hsend.trans
    apply complete
    intro handler hhandler
    rw [System.cell_send, if_pos rfl] at hhandler
    obtain rfl := Option.some.inj hhandler
    exact ⟨rfl, hsend.rooted hq⟩
  · apply hsend

/-- Messages other than `setCompletionHandler:` leave the completion handler. -/
theorem send_same {r : TransferRef} {message : TransferMessage}
    {f : AWSS3TransferUtilityTask → AWSS3TransferUtilityTask}
    (hf : ∀ t, (f t).completionHandler = t.completionHandler) (s : System) :
  Acts md5 q s (s.send r message f)
  := by
  apply send
  intro handler hhandler
  rw [hf] at hhandler
  apply Or.inl hhandler

/-- What a transfer has transferred is written to the file, or to the bucket. -/
theorem transferred (t : AWSS3TransferUtilityTask) (s : System) :
  Acts md5 q s (LCS3Hander.transferred t s)
  := by
  rw [LCS3Hander.transferred]
  split
  · split
    · apply refl
    · apply update
  · exact of_hander rfl rfl rfl (fun _ h => Or.inl h)

theorem endTransfer {r : TransferRef} (error : Option NSError)
    (hr : ∀ handler ∈ (s.transfers.cell r).completionHandler, handler.request = q ∧ Rooted q s) :
  Acts md5 q s (LCS3Hander.endTransfer (quiet md5) r error s)
  := by
  have hmoved : Acts md5 q s
      (if error.isSome then s else LCS3Hander.transferred (s.transfers.cell r) s) := by
    split
    · apply refl
    · apply transferred
  have htransfers : (if error.isSome then s else LCS3Hander.transferred (s.transfers.cell r) s
      ).transfers = s.transfers := by
    split
    · rfl
    · rw [LCS3Hander.transferred]
      split
      · split
        · rfl
        · rfl
      · rfl
  rw [LCS3Hander.endTransfer]
  generalize (if error.isSome then s else LCS3Hander.transferred (s.transfers.cell r) s) = s' at *
  have hended : Acts md5 q s' (s'.setTransfer r (AWSS3TransferUtilityTask.finish error)) := by
    apply setTransfer
    intro handler hhandler
    apply Or.inl hhandler
  apply (hmoved.trans hended).trans
  apply complete
  intro handler hhandler
  rw [System.cell_setTransfer, if_pos rfl, htransfers] at hhandler
  obtain ⟨rfl, hq⟩ := hr handler hhandler
  exact ⟨rfl, (hmoved.trans hended).rooted hq⟩

/-! ### Methods and continuations -/

theorem resumTask (hq : Rooted q s) (takes : TransferKind → Bool) :
  Acts md5 q s (LCS3Hander.resumTask (quiet md5) takes q s)
  := by
  rw [LCS3Hander.resumTask]
  split
  · next r hr =>
      split
      · apply (setCompletionHandler hq r false).trans
        apply send_same AWSS3TransferUtilityTask.completionHandler_resume
      · apply refl
  · apply finishCallback

/-- A method without blocks at most sends a message. -/
theorem callMethod_stop {q : RequestRef} (hmethod : (s.requests.cell q).method.transfers = false)
    (q' : RequestRef) :
  Acts md5 q' s (LCS3Hander.callMethod (quiet md5) q s)
  := by
  rw [LCS3Hander.callMethod]
  cases hcall : (s.requests.cell q).method with
  | cancel =>
      dsimp only
      rw [lcFileNetHanderCancelTask]
      split
      · exact send_same (f := AWSS3TransferUtilityTask.cancel) (fun _ => rfl) s
      · apply refl
  | pause =>
      dsimp only
      rw [lcFileNetHanderPauseTask]
      split
      · apply send_same AWSS3TransferUtilityTask.completionHandler_suspend
      · apply refl
  | _ =>
      rw [hcall] at hmethod
      cases hmethod

theorem callMethod (hq : Rooted q s) :
  Acts md5 q s (LCS3Hander.callMethod (quiet md5) q s)
  := by
  by_cases hmethod : (s.requests.cell q).method.transfers = false
  · apply callMethod_stop hmethod
  · rw [LCS3Hander.callMethod]
    cases hcall : (s.requests.cell q).method with
    | upload => apply of_replies (Replies.lcFileNetHanderUpload s)
    | download => apply of_replies (Replies.lcFileNetHanderDownload s)
    | resumUpload => apply resumTask hq
    | resumDownload => apply resumTask hq
    | cancel => apply absurd (by rw [hcall]; rfl) hmethod
    | pause => apply absurd (by rw [hcall]; rfl) hmethod

theorem copyCallback (error : Option NSError) (s : System) :
  Acts md5 q s (LCS3Hander.copyCallback (quiet md5) q error s)
  := by
  cases error with
  | some error => apply of_replies (Replies.copyCallback error s)
  | none => apply (progressCallback s).trans (finishCallback none _)

/-- What was waiting for a request goes on. -/
theorem goOn {c : Continuation} (hq : Rooted c.request s) (url : Option String)
    (error : Option NSError) :
  Acts md5 c.request s (LCS3Hander.goOn (quiet md5) url error c s)
  := by
  cases c with
  | replicate q source key =>
      cases error with
      | some error => apply copyCallback
      | none =>
          have hreplicated : Acts md5 q s (replicateObject source.fileKey key s) := by
            unfold replicateObject
            split
            · exact of_hander rfl rfl rfl (fun _ h => Or.inl h)
            · apply refl
          apply hreplicated.trans
          exact wait (c := .copyURL q source) rfl _
  | copyURL q source =>
      have hset : Acts md5 q s (s.setTaskOf q (fun task => { task with
          url
          finishedSize := source.finishedSize
          totalSize := source.totalSize })) := setTaskOf hq ⟨rfl, rfl⟩
      apply hset.trans (copyCallback error _)
  | copyItem q source =>
      rw [LCS3Hander.goOn]
      unfold copyItemAtPath
      split
      · exact of_hander rfl rfl rfl (fun _ h => Or.inl h)
      · exact wait (c := .copied q source _) rfl s
      · next path _ =>
          have hcopied : Acts md5 q s (LCS3Hander.copyItem source.filePath path s) := by
            unfold LCS3Hander.copyItem
            split
            · next sourcePath _ => apply update path (s.disk sourcePath) s
            · apply refl
          apply hcopied.trans
          exact wait (c := .copied q source none) rfl _
  | copied q source copyError =>
      have hmd5 : Acts md5 q s
          (if copyError.isSome then s else LCS3Hander.setMd5 (quiet md5) q s) := by
        split
        · apply refl
        · apply setMd5 hq
      have hset := hmd5.trans (setTaskOf (f := fun task => { task with
        finishedSize := source.finishedSize
        totalSize := source.totalSize }) (hmd5.rooted hq) ⟨rfl, rfl⟩)
      apply hset.trans (copyCallback copyError _)
  | start q kind key path =>
      cases error with
      | some error => apply finishCallback
      | none =>
          have hstarted : Acts md5 q s (s.mapHander (fun h => { h with
              transfers := h.transfers.alloc
                { kind, key, path, completionHandler := some ⟨q, true⟩ } })) := by
            refine of_hander rfl rfl rfl ?_
            rintro q' (hwaiting | ⟨r, handler, hhandler, rfl⟩)
            · apply Or.inl (Or.inl hwaiting)
            · rw [System.toHander_mapHander, Heap.cell_alloc] at hhandler
              split at hhandler
              · obtain rfl := Option.some.inj hhandler
                apply Or.inr rfl
              · apply Or.inl (Or.inr ⟨r, handler, hhandler, rfl⟩)
          apply hstarted.trans
          exact wait (c := .started q s.transfers.next) rfl _
  | started q r => apply setObject hq r
  | url q =>
      have hset : Acts md5 q s (s.setTaskOf q (fun task => { task with url })) :=
        setTaskOf hq ⟨rfl, rfl⟩
      apply hset.trans (finishCallback error _)

theorem progressBlock {r : TransferRef}
    (hr : ∀ handler ∈ (s.transfers.cell r).completionHandler, handler.request = q ∧ Rooted q s)
    (completed total : Int) :
  Acts md5 q s (LCS3Hander.progressBlock (quiet md5) r completed total s)
  := by
  rw [LCS3Hander.progressBlock]
  split
  · next handler hhandler =>
      obtain ⟨rfl, hq⟩ := hr handler hhandler
      have hset := @setTaskOf md5 _ s hq (fun task => { task with
        finishedSize := max completed task.finishedSize
        totalSize := total }) ⟨rfl, rfl⟩
      apply hset.trans (progressCallback _)
  · apply refl

theorem loadTransfers (transfers : List TransferRef) (s : System) :
  Acts md5 q s (LCS3Hander.loadTransfers transfers s)
  := by
  induction transfers generalizing s with
  | nil => apply refl
  | cons r transfers ih =>
      have hsend := @send_same md5 q r .suspend _
        AWSS3TransferUtilityTask.completionHandler_suspend s
      have hinsert : Acts md5 q (s.send r .suspend AWSS3TransferUtilityTask.suspend)
          ((s.send r .suspend AWSS3TransferUtilityTask.suspend).mapHander (fun h => { h with
            taskDic := h.taskDic.insert (h.transfers.cell r).key r })) :=
        of_hander rfl rfl rfl (fun _ h => Or.inl h)
      apply (hsend.trans hinsert).trans (ih _)

end Acts

/-! ### Steps -/

/-- The requests that are made and have a finish block have tasks, and what is to go on goes on for
such requests. -/
structure Founded (s : System) : Prop where
  wellFormed : WellFormed s.toCore
  calls : CallsOwned s.toCore
  rooted : ∀ q, Made q s → Rooted q s
  active : ∀ q, Active q s → Made q s

/-- What the service does in an event of the system: the event itself, or acts of the handler. -/
def PartOf (e : HanderEvent) (s : State) (e' : Event) : Prop :=
  e = .service e' ∨ ActOfHander s e'

/-- What the system does in an event: nothing, an event of the service, the start of a process, or
acts of the handler, for a request that has been made, for none in particular, or for one that is
made in the event. -/
inductive Does (md5 : Bytes → String) (s : System) : HanderEvent → System → Prop
  | nothing (e : HanderEvent) : Does md5 s e s
  | service {e : Event} (he : e ≠ .restart) :
      Does md5 s (.service e) (s.mapState (fun s => step (quiet md5) s e))
  | restart : Does md5 s (.service .restart) (System.initial s.db s.disk s.transfers s.bucket)
  | works (e : HanderEvent) {q : RequestRef} {s' : System} (hq : Made q s)
      (h : Acts md5 q s s') : Does md5 s e s'
  | steers (e : HanderEvent) {s' : System} (h : ∀ q, Acts md5 q s s') : Does md5 s e s'
  | request {e : HanderEvent} {r : Request} {s' : System} (hmakes : Makes s r e)
      (htransfers : r.method.transfers) (htask : r.task < s.tasks.next)
      (h : Acts md5 s.requests.next (s.addRequest r) s') : Does md5 s e s'
  | message {e : HanderEvent} {r : Request} {s' : System} (hmakes : Makes s r e)
      (htransfers : r.method.transfers = false) (h : ∀ q, Acts md5 q (s.addRequest r) s') :
      Does md5 s e s'

/-- Whatever the system does in an event, the service does by the event itself, or by acts of the
handler. -/
theorem Does.reaches {md5 : Bytes → String} {s s' : System} {e : HanderEvent}
    (h : Does md5 s e s') :
  Run.Reaches (step (quiet md5)) (PartOf e) s.toState s'.toState
  := by
  cases h with
  | nothing => apply Run.Reaches.refl
  | service he => exact Run.Reaches.single (Or.inl rfl)
  | restart => exact Run.Reaches.single (e := Event.restart) (Or.inl rfl)
  | works _ hq h => exact h.service.mono (fun _ _ hact => Or.inr hact)
  | steers _ h => exact (h 0).service.mono (fun _ _ hact => Or.inr hact)
  | request hmakes htransfers htask h => exact h.service.mono (fun _ _ hact => Or.inr hact)
  | message hmakes htransfers h => exact (h 0).service.mono (fun _ _ hact => Or.inr hact)

namespace Founded

variable {md5 : Bytes → String} {s s' : System}

theorem initial (db : TaskTable) (disk : Disk String Bytes)
    (transfers : Heap AWSS3TransferUtilityTask) (bucket : Disk String Bytes) :
  Founded (System.initial db disk transfers bucket)
  := by
  constructor
  · apply WellFormed.initial
  · rintro r ⟨⟩
  · rintro q ⟨⟨⟩, -⟩
  · rintro q (⟨c, ⟨⟩, -⟩ | ⟨r, handler, ⟨⟩, -⟩)

/-- Acts for a request that has been made, if it is to go on, found the system again. -/
theorem acts (h : Founded s) {q : RequestRef} (hacts : Acts md5 q s s')
    (hq : Active q s' → Made q s) :
  Founded s'
  := by
  have hservice := hacts.service.invariant
    (I := fun t : State => WellFormed t.toCore ∧ CallsOwned t.toCore) (by
      rintro t e ⟨hwf, hcalls⟩ hact
      refine ⟨hwf.step e, hcalls.step ?_⟩
      rintro rfl
      cases hact) ⟨h.wellFormed, h.calls⟩
  have hmade : ∀ q', Made q' s' ↔ Made q' s := by
    intro q'
    rw [Made, Made, hacts.requests]
  constructor
  · apply hservice.1
  · apply hservice.2
  · intro q' hq'
    apply hacts.rooted (h.rooted q' ((hmade q').mp hq'))
  · intro q' hq'
    rw [hmade]
    obtain hactive | rfl := hacts.active q' hq'
    · apply h.active q' hactive
    · apply hq hq'

/-- Acts that are for no request in particular found the system again. -/
theorem acts_of_forall (h : Founded s) (hacts : ∀ q, Acts md5 q s s') :
  Founded s'
  := by
  apply h.acts (hacts 0)
  intro hactive
  have hactive' := ((hacts 1).active 0 hactive).resolve_right (by decide)
  apply h.active 0 hactive'

/-- The service takes a step of its own. -/
theorem service (h : Founded s) {e : Event} (he : e ≠ .restart) :
  Founded (s.mapState (fun s => LCCFileService.step (quiet md5) s e))
  := by
  constructor
  · apply h.wellFormed.step e
  · apply h.calls.step he
  · intro q hq
    apply Nat.lt_of_lt_of_le (h.rooted q hq) (Advance.step s.toState he).tasks_le
  · apply h.active

/-- A request is entered, with a task if it has a finish block. -/
theorem addRequest (h : Founded s) {r : Request} (hr : r.method.transfers → r.task < s.tasks.next) :
  Founded (s.addRequest r)
  := by
  have hcell : ∀ q, (s.addRequest r).requests.cell q
      = if q = s.requests.next then r else s.requests.cell q := fun q => Heap.cell_alloc r _ q
  constructor
  · apply h.wellFormed
  · apply h.calls
  · rintro q ⟨hlt, hmethod⟩
    rw [hcell] at hmethod
    rw [Rooted, hcell]
    split at hmethod
    · next heq =>
        rw [if_pos heq]
        apply hr hmethod
    · next hne =>
        rw [if_neg hne]
        apply h.rooted q ⟨Nat.lt_of_le_of_ne (Nat.lt_succ_iff.mp hlt) hne, hmethod⟩
  · intro q hq
    apply (h.active q hq).addRequest

/-- Whatever the system does founds it again. -/
theorem of_does (h : Founded s) {e : HanderEvent} (hdoes : Does md5 s e s') :
  Founded s'
  := by
  cases hdoes with
  | nothing => apply h
  | service he => apply h.service he
  | restart => apply initial
  | works _ hq hacts => apply h.acts hacts (fun _ => hq)
  | steers _ hacts => apply h.acts_of_forall hacts
  | @request _ r _ hmakes htransfers htask hacts =>
      apply (h.addRequest (fun _ => htask)).acts hacts
      intro _
      refine ⟨Nat.lt_succ_self _, ?_⟩
      rw [System.addRequest, System.toHander_mapHander, Heap.cell_alloc_next]
      apply htransfers
  | message hmakes htransfers hacts =>
      refine (h.addRequest ?_).acts_of_forall hacts
      intro htransfers'
      rw [htransfers] at htransfers'
      cases htransfers'

/-- Somebody makes a request. -/
theorem request (h : Founded s) {e : HanderEvent} {r : Request} (hmakes : Makes s r e)
    (hr : r.method.transfers → r.task < s.tasks.next) :
  Does md5 s e (LCS3Hander.request (quiet md5) r s)
  := by
  have hcell : (s.addRequest r).requests.cell s.requests.next = r := Heap.cell_alloc_next _ _
  rw [LCS3Hander.request]
  cases hmethod : r.method.transfers with
  | true =>
      apply Does.request hmakes hmethod (hr hmethod)
      apply Acts.callMethod
      apply (h.addRequest hr).rooted
      refine ⟨Nat.lt_succ_self _, ?_⟩
      rw [hcell]
      apply hmethod
  | false =>
      apply Does.message hmakes hmethod
      apply Acts.callMethod_stop
      rw [hcell]
      apply hmethod

/-- What a transfer does to its request, by its completion handler or otherwise. -/
theorem ofTransfer (h : Founded s) (e : HanderEvent) {r : TransferRef}
    (hacts : ∀ q, (∀ handler ∈ (s.transfers.cell r).completionHandler,
      handler.request = q ∧ Rooted q s) → Acts md5 q s s') :
  Does md5 s e s'
  := by
  cases hhandler : (s.transfers.cell r).completionHandler with
  | none =>
      apply Does.steers
      intro q
      apply hacts
      rw [hhandler]
      rintro handler ⟨⟩
  | some handler =>
      have hmade : Made handler.request s := h.active _ (Or.inr ⟨r, handler, hhandler, rfl⟩)
      apply Does.works e hmade
      apply hacts
      rw [hhandler]
      rintro handler' hhandler'
      obtain rfl := Option.some.inj hhandler'
      exact ⟨rfl, h.rooted _ hmade⟩

/-- What the system does in an event. -/
theorem does (h : Founded s) (e : HanderEvent) :
  Does md5 s e (System.step (quiet md5) s e)
  := by
  cases e with
  | service e =>
      cases e with
      | restart => apply Does.restart
      | progress r => apply Does.nothing
      | finish r error => apply Does.nothing
      | _ => exact Does.service (by rintro ⟨⟩)
  | call r =>
      rw [System.step]
      split
      · next huncalled =>
          have hlt : r < s.calls.next := by
            rw [uncalled, Bool.and_eq_true, decide_eq_true_iff] at huncalled
            apply huncalled.1
          apply h.request
          · apply if_pos huncalled
          · intro hmethod
            apply h.wellFormed.owned _ (h.calls r hlt hmethod)
      · apply Does.nothing
  | request method task =>
      rw [System.step]
      split
      · next hlt =>
          apply h.request
          · apply if_pos hlt
          · exact fun _ => hlt
      · apply Does.nothing
  | goOn i url error =>
      rw [System.step]
      split
      · next c hc =>
          split
          · have hmem := List.mem_of_getElem? hc
            have hmade : Made c.request s := h.active _ (Or.inl ⟨c, hmem, rfl⟩)
            have hdropped : Acts md5 c.request s (s.dropWaiting i) := by
              refine Acts.of_hander rfl rfl rfl ?_
              rintro q (⟨c', hc', rfl⟩ | htransfer)
              · exact Or.inl (Or.inl ⟨c', List.mem_of_mem_eraseIdx hc', rfl⟩)
              · apply Or.inl (Or.inr htransfer)
            apply Does.works _ hmade
            apply hdropped.trans (Acts.goOn (hdropped.rooted (h.rooted _ hmade)) url error)
          · apply Does.nothing
      · apply Does.nothing
  | ends r error =>
      rw [System.step]
      split
      · apply h.ofTransfer
        intro q hq
        apply Acts.endTransfer error hq
      · apply Does.nothing
  | body r body =>
      rw [System.step]
      split
      · apply Does.steers
        intro q
        apply Acts.update
      · apply Does.nothing
  | progress r completed total =>
      rw [System.step]
      split
      · apply h.ofTransfer
        intro q hq
        apply Acts.progressBlock hq
      · apply Does.nothing
  | loadHistory uploadTask multiPartUploadTask downloadTask =>
      rw [System.step]
      split
      · apply Does.steers
        intro q
        apply ((Acts.loadTransfers uploadTask s).trans (Acts.loadTransfers _ _)).trans
        apply Acts.loadTransfers
      · apply Does.nothing

theorem step (h : Founded s) (e : HanderEvent) :
  Founded (System.step (quiet md5) s e)
  := h.of_does (h.does e)

end Founded

/-- Whatever happens to the system of the service, the handler and S3 in a run, the service comes to
its state by a run of its own events, each of which is an event of the run or an act of the
handler. -/
theorem reaches_toState (md5 : Bytes → String) (db : TaskTable) (disk : Disk String Bytes)
    (transfers : Heap AWSS3TransferUtilityTask) (bucket : Disk String Bytes)
    (es : List HanderEvent) :
  Run.Reaches (step (quiet md5)) (fun s e' => .service e' ∈ es ∨ ActOfHander s e')
    (State.initial db disk)
    (Run.final (System.step (quiet md5)) (System.initial db disk transfers bucket) es).toState
  := by
  have hreaches := Run.reaches_of_step (f := System.toState)
    (fun s e (h : Founded s) => ⟨h.step e, (@Founded.does md5 s h e).reaches⟩)
    (Founded.initial db disk transfers bucket) es
  apply hreaches.mono
  rintro s e' ⟨e, he, rfl | hact⟩
  · apply Or.inl he
  · apply Or.inr hact

/-! ### What the handler cannot break -/

/-- The property of the events of the service, where an event of the system is one. -/
def HanderEvent.OfService (P : State → Event → Prop) (s : System) : HanderEvent → Prop
  | .service e => P s.toState e
  | _ => True

section

variable {md5 : Bytes → String} {I : State → Prop} {P : State → Event → Prop}
  (hservice : ∀ s e, I s → P s e → I (step (quiet md5) s e))
  (hacts : ∀ s e, I s → ActOfHander s e → I (step (quiet md5) s e))
include hservice hacts

/-- What the service keeps, in its events with the property `P` and upon all acts of the handler, is
kept by the system in an event that has the property if it is one of the service. -/
theorem Does.preserves {s s' : System} {e : HanderEvent} (h : Does md5 s e s') (hI : I s.toState)
    (hP : e.OfService P s) :
  I s'.toState
  := by
  cases h with
  | nothing => apply hI
  | service he => apply hservice _ _ hI hP
  | restart => exact hservice s.toState .restart hI hP
  | works _ hq h => apply h.service.invariant hacts hI
  | steers _ h => apply (h 0).service.invariant hacts hI
  | request hmakes htransfers htask h => exact h.service.invariant hacts hI
  | message hmakes htransfers h => exact (h 0).service.invariant hacts hI

/-- What the service keeps, in its events with the property `P` and upon all acts of the handler,
holds throughout every run of the system whose events of the service have the property. -/
theorem throughout_toState {db : TaskTable} {disk : Disk String Bytes}
    (hinitial : I (State.initial db disk)) (transfers : Heap AWSS3TransferUtilityTask)
    (bucket : Disk String Bytes) {es : List HanderEvent}
    (hes : Run.Along (System.step (quiet md5)) (fun s e => e.OfService P s)
      (System.initial db disk transfers bucket) es) :
  Run.Throughout (System.step (quiet md5)) (fun s => I s.toState)
    (System.initial db disk transfers bucket) es
  := by
  have hthroughout := Run.throughout_of_step (I := fun s => Founded s ∧ I s.toState)
    (fun s e h hP => ⟨h.1.step e, (h.1.does e).preserves hservice hacts h.2 hP⟩)
    ⟨Founded.initial db disk transfers bucket, hinitial⟩ hes
  apply hthroughout.imp
  intro s h
  apply h.2

end

/-- A task that has a row when the process starts keeps it, and stays about the same file, in the
system of the service, the handler and S3: throughout every run, with further processes, in which
it is not cancelled and the application sets no task with its task id to another file. -/
theorem throughout_identity {md5 : Bytes → String} {k : String} {row : LCFileNetTaskRow}
    {db : TaskTable} (hrow : db.get k = some row) (disk : Disk String Bytes)
    (transfers : Heap AWSS3TransferUtilityTask) (bucket : Disk String Bytes)
    {es : List HanderEvent} (hes : Run.Along (System.step (quiet md5))
      (fun s e => e.OfService (fun s e => ¬ Forgets s k e ∧ KeepsIdentity k s e) s)
      (System.initial db disk transfers bucket) es) :
  Run.Throughout (System.step (quiet md5)) (fun s => Identified k row.identity s.toCore)
    (System.initial db disk transfers bucket) es
  := by
  have hstep : ∀ (s : State) (e : Event),
      (WellFormed s.toCore ∧ CallsOwned s.toCore) ∧ Identified k row.identity s.toCore →
      ¬ Forgets s k e ∧ KeepsIdentity k s e →
      (WellFormed (step (quiet md5) s e).toCore ∧ CallsOwned (step (quiet md5) s e).toCore) ∧
        Identified k row.identity (step (quiet md5) s e).toCore := by
    rintro s e ⟨⟨hwf, hcalls⟩, h⟩ ⟨hforgets, hkeeps⟩
    refine ⟨⟨hwf.step e, ?_⟩, h.step hwf hcalls hforgets hkeeps⟩
    by_cases he : e = .restart
    · subst he
      rintro r ⟨⟩
    · apply hcalls.step he
  have hinitial : Identified k row.identity (State.initial db disk).toCore := by
    refine ⟨⟨⟨row, hrow, rfl⟩, ?_⟩, ?_⟩
    · rintro r ⟨⟩
    · rintro o ⟨⟩
  have hthroughout := throughout_toState hstep (fun s e h hact => hstep s e h (by
      cases e with
      | set r t => exact ⟨id, fun _ => hact.1⟩
      | cancelTask taskId => cases hact
      | returns i => cases hact
      | _ => exact ⟨id, trivial⟩))
    ⟨⟨WellFormed.initial db disk, by rintro r ⟨⟩⟩, hinitial⟩ transfers bucket hes
  apply hthroughout.imp
  intro s h
  apply h.2

/-- A stored download is started by a task object about another file, and the process ends. -/
theorem identity_startedByAnother :
  Run.Throughout (System.step (quiet (fun _ => "")))
    (fun s => Identified "k" (some "f", .download, none, none) s.toCore)
    (System.initial (LCFileTaskDB.lcSaveTask
      { taskId := "k", fileKey := "f", type := .download, status := .pause } ∅) (fun _ => none)
      .empty (fun _ => none))
    [.service (.create { taskId := "k", fileKey := "g", type := .download }),
      .service (.addHander 0), .service (.startTask 0), .service (.opStart 0), .call 0,
      .service .restart, .service (.getTask "k")]
  := @throughout_identity (fun _ => "") "k"
      { taskId := "k", fileKey := "f", type := .download, status := .pause } _ (by decide) _ _ _ _
      ⟨⟨id, trivial⟩, ⟨id, trivial⟩, ⟨id, trivial⟩, ⟨id, trivial⟩, trivial, ⟨id, trivial⟩,
        ⟨id, trivial⟩, trivial⟩

end LCCFileService
