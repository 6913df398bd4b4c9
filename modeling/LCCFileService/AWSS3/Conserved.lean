import LCCFileService.AWSS3.Refinement

/-!
# Files and objects are kept

The service, the handler and S3 write a file only where there is none, and a file or an object only
with a content that a file or an object already has; the bodies of answers with an error, which are
moved to the paths of downloads, are the exception.  So a file keeps its content until the
application edits it, whatever is downloaded or copied to its path, an object never goes away, and
every content comes from the disk or the bucket at the beginning, from the application, or from a
download that was answered with an error.
-/

namespace LCCFileService

open LCS3Hander

/-- A file or an object has the content. -/
def Stored (content : Bytes) (s : System) : Prop :=
  (∃ path, s.disk path = some content) ∨ ∃ key, s.bucket key = some content

/-- From `s` to `s'` no file changes, no object goes away, and no content comes up. -/
structure Conserves (s s' : System) : Prop where
  files : ∀ path content, s.disk path = some content → s'.disk path = some content
  objects : ∀ key, s.bucket.has key → s'.bucket.has key
  stored : ∀ content, Stored content s' → Stored content s

/-- A file stays where another is written to a free path. -/
theorem kept_update_disk {s : System} {path path' : String} (hpath : s.disk path = none)
    (content : Option Bytes) {c : Bytes} (hfile : s.disk path' = some c) :
  (s.mapDisk (fun disk => Function.update disk path content)).disk path' = some c
  := by
  have hdisk : (s.mapDisk (fun disk => Function.update disk path content)).disk path'
      = if path' = path then content else s.disk path' :=
    Function.update_apply s.disk path content path'
  rw [hdisk, if_neg]
  · apply hfile
  · rintro rfl
    cases hpath.symm.trans hfile

/-- A content that is stored where a file is written was stored before, or is that of the file. -/
theorem stored_update_disk {s : System} {path : String} {content : Option Bytes} {c : Bytes}
    (h : Stored c (s.mapDisk (fun disk => Function.update disk path content))) :
  Stored c s ∨ content = some c
  := by
  have hdisk : ∀ path', (s.mapDisk (fun disk => Function.update disk path content)).disk path'
      = if path' = path then content else s.disk path' := Function.update_apply s.disk path content
  obtain ⟨path', hfile⟩ | hobject := h
  · rw [hdisk] at hfile
    split at hfile
    · apply Or.inr hfile
    · apply Or.inl (Or.inl ⟨path', hfile⟩)
  · apply Or.inl (Or.inr hobject)

namespace Conserves

variable {s s' s'' : System}

theorem of_eq (hdisk : s'.disk = s.disk) (hbucket : s'.bucket = s.bucket) :
  Conserves s s'
  := by
  constructor
  · intro path content hfile
    rw [hdisk]
    apply hfile
  · intro key hkey
    rw [hbucket]
    apply hkey
  · intro content hstored
    rw [Stored, hdisk, hbucket] at hstored
    apply hstored

theorem trans (h : Conserves s s') (h' : Conserves s' s'') :
  Conserves s s''
  := by
  constructor
  · intro path content hfile
    apply h'.files path content (h.files path content hfile)
  · intro key hkey
    apply h'.objects key (h.objects key hkey)
  · intro content hstored
    apply h.stored content (h'.stored content hstored)

/-- A file is written where there is none. -/
theorem update_disk {path : String} (hpath : s.disk path = none) {content : Option Bytes}
    (hcontent : ∀ c, content = some c → Stored c s) :
  Conserves s (s.mapDisk (fun disk => Function.update disk path content))
  := by
  constructor
  · intro path' c hfile
    apply kept_update_disk hpath content hfile
  · intro key hkey
    apply hkey
  · intro c hstored
    obtain hstored | hcontent' := stored_update_disk hstored
    · apply hstored
    · apply hcontent c hcontent'

/-- An object is written, possibly over another. -/
theorem update_bucket {key : String} {content : Option Bytes} (hsome : content.isSome)
    (hcontent : ∀ c, content = some c → Stored c s) :
  Conserves s (s.mapBucket (fun bucket => Function.update bucket key content))
  := by
  have hbucket : ∀ key', (s.mapBucket (fun bucket => Function.update bucket key content)).bucket
      key' = if key' = key then content else s.bucket key' :=
    Function.update_apply s.bucket key content
  constructor
  · intro path c hfile
    apply hfile
  · intro key' hkey'
    rw [Disk.has, hbucket]
    split
    · apply hsome
    · apply hkey'
  · rintro c (hfile | ⟨key', hobject⟩)
    · apply Or.inl hfile
    · rw [hbucket] at hobject
      split at hobject
      · apply hcontent c hobject
      · apply Or.inr ⟨key', hobject⟩

end Conserves

/-! ### Steps of the service -/

/-- The service itself does not touch the disk. -/
theorem disk_step {md5 : Bytes → String} {s : State} (hwf : WellFormed s.toCore) {e : Event}
    (hedit : ∀ path content, e ≠ .edit path content) :
  (step (quiet md5) s e).disk = s.disk
  := by
  have hreports : e ≠ .restart → (∀ task t, e ≠ .set task t) → (∀ task, e ≠ .startTask task) →
      (step (quiet md5) s e).disk = s.disk := by
    intro hrestart hset hstart
    have hstep : Reports (fun _ => True) s (step (quiet md5) s e) :=
      Reports.step hwf hrestart (fun task t he => absurd he (hset task t)) hedit hstart
        (fun _ _ _ => Or.inl trivial)
    apply hstep.disk
  cases e with
  | restart => rfl
  | set task t =>
      rw [step]
      split
      · rfl
      · rfl
  | startTask task =>
      rw [step]
      split
      · apply (Reports.lcStartTask task s).disk
      · rfl
  | edit path content => apply absurd rfl (hedit path content)
  | _ =>
      apply hreports
      · rintro ⟨⟩
      · rintro task t ⟨⟩
      · rintro task ⟨⟩

/-- From `s` to `s'` contents are conserved, while the tables of the service stay well-formed. -/
def Conserving (s s' : System) : Prop :=
  WellFormed s.toCore → WellFormed s'.toCore ∧ Conserves s s'

namespace Conserving

variable {md5 : Bytes → String} {q : RequestRef} {s s' s'' : System}

theorem refl (s : System) :
  Conserving s s
  := fun hwf => ⟨hwf, .of_eq rfl rfl⟩

theorem trans (h : Conserving s s') (h' : Conserving s' s'') :
  Conserving s s''
  := by
  intro hwf
  obtain ⟨hwf', hconserves⟩ := h hwf
  obtain ⟨hwf'', hconserves'⟩ := h' hwf'
  exact ⟨hwf'', hconserves.trans hconserves'⟩

/-- The handler changes its own state, apart from the bucket. -/
theorem of_hander (hstate : s'.toState = s.toState) (hbucket : s'.bucket = s.bucket) :
  Conserving s s'
  := by
  intro hwf
  refine ⟨?_, .of_eq ?_ hbucket⟩
  · rw [hstate]
    apply hwf
  · rw [hstate]

/-- A step of the service. -/
theorem service {e : Event} (hedit : ∀ path content, e ≠ .edit path content) (s : System) :
  Conserving s (s.mapState (fun t => step (quiet md5) t e))
  := by
  intro hwf
  exact ⟨hwf.step e, .of_eq (disk_step hwf hedit) rfl⟩

theorem raise (s : System) :
  Conserving s (s.mapState State.raise)
  := fun hwf => ⟨hwf, .of_eq rfl rfl⟩

theorem setTaskOf (q : RequestRef) (f : LCFileNetTask → LCFileNetTask) (s : System) :
  Conserving s (s.setTaskOf q f)
  := fun hwf => ⟨hwf.setTask _ f, .of_eq rfl rfl⟩

theorem wait (c : Continuation) (s : System) :
  Conserving s (s.wait c)
  := of_hander rfl rfl

theorem setTransfer (r : TransferRef) (f : AWSS3TransferUtilityTask → AWSS3TransferUtilityTask)
    (s : System) :
  Conserving s (s.setTransfer r f)
  := of_hander rfl rfl

theorem send (r : TransferRef) (message : TransferMessage)
    (f : AWSS3TransferUtilityTask → AWSS3TransferUtilityTask) (s : System) :
  Conserving s (s.send r message f)
  := of_hander rfl rfl

/-! ### Blocks and methods -/

theorem finishCallback (error : Option NSError) (s : System) :
  Conserving s (LCS3Hander.finishCallback (quiet md5) q error s)
  := by
  have hanswer : Conserving s
      (s.mapHander (fun h => { h with answers := h.answers ++ [(q, error)] })) := of_hander rfl rfl
  rw [LCS3Hander.finishCallback]
  split
  · apply hanswer.trans (service (by rintro path content ⟨⟩) _)
  · apply hanswer

theorem progressCallback (s : System) :
  Conserving s (LCS3Hander.progressCallback (quiet md5) q s)
  := by
  rw [LCS3Hander.progressCallback]
  split
  · apply service (by rintro path content ⟨⟩)
  · apply refl

theorem of_replies (h : Replies (quiet md5) q s s') :
  Conserving s s'
  := by
  induction h with
  | refl => apply refl
  | finish _ error ih => apply ih.trans (finishCallback error _)
  | wait _ _ _ ih => apply ih.trans (wait _ _)

theorem copyCallback (error : Option NSError) (s : System) :
  Conserving s (LCS3Hander.copyCallback (quiet md5) q error s)
  := by
  cases error with
  | some error => apply of_replies (Replies.copyCallback error s)
  | none => apply (progressCallback s).trans (finishCallback none _)

theorem removeObject (q : RequestRef) (s : System) :
  Conserving s (LCS3Hander.removeObject q s)
  := by
  rw [LCS3Hander.removeObject]
  split
  · exact of_hander rfl rfl
  · apply raise

theorem setObject (q : RequestRef) (r : TransferRef) (s : System) :
  Conserving s (LCS3Hander.setObject q r s)
  := by
  rw [LCS3Hander.setObject]
  split
  · exact of_hander rfl rfl
  · apply raise

theorem answerCompletion (kind : TransferKind) (error : Option NSError) (s : System) :
  Conserving s (LCS3Hander.answerCompletion (quiet md5) kind q error s)
  := by
  rw [LCS3Hander.answerCompletion]
  split
  · apply finishCallback
  · split
    · apply (setTaskOf q _ s).trans (finishCallback none _)
    · apply wait

theorem complete (r : TransferRef) (s : System) :
  Conserving s (LCS3Hander.complete (quiet md5) r s)
  := by
  rw [LCS3Hander.complete]
  split
  · next handler _ =>
      refine trans ?_ (setTransfer r _ _)
      have hanswer := @answerCompletion md5 handler.request (s.transfers.cell r).kind
        (s.transfers.cell r).error s
      rw [runCompletionHandler]
      split
      · apply hanswer.trans (removeObject _ _)
      · apply hanswer
  · apply refl

theorem resumTask (takes : TransferKind → Bool) (s : System) :
  Conserving s (LCS3Hander.resumTask (quiet md5) takes q s)
  := by
  rw [LCS3Hander.resumTask]
  split
  · next r _ =>
      split
      · refine trans ?_ (send r _ _ _)
        rw [setCompletionHandler]
        split
        · apply (send r _ _ s).trans (complete r _)
        · apply send
      · apply refl
  · apply finishCallback

theorem callMethod (q : RequestRef) (s : System) :
  Conserving s (LCS3Hander.callMethod (quiet md5) q s)
  := by
  rw [LCS3Hander.callMethod]
  cases (s.requests.cell q).method with
  | upload => apply of_replies (Replies.lcFileNetHanderUpload s)
  | download => apply of_replies (Replies.lcFileNetHanderDownload s)
  | resumUpload => apply resumTask
  | resumDownload => apply resumTask
  | cancel =>
      dsimp only
      rw [lcFileNetHanderCancelTask]
      split
      · apply send
      · apply refl
  | pause =>
      dsimp only
      rw [lcFileNetHanderPauseTask]
      split
      · apply send
      · apply refl

theorem request (r : Request) (s : System) :
  Conserving s (LCS3Hander.request (quiet md5) r s)
  := by
  have hadd : Conserving s (s.addRequest r) := of_hander rfl rfl
  apply hadd.trans (callMethod _ _)

theorem loadTransfers (transfers : List TransferRef) (s : System) :
  Conserving s (LCS3Hander.loadTransfers transfers s)
  := by
  induction transfers generalizing s with
  | nil => apply refl
  | cons r transfers ih =>
      have hload : Conserving s ((s.send r .suspend AWSS3TransferUtilityTask.suspend).mapHander
          (fun h => { h with taskDic := h.taskDic.insert (h.transfers.cell r).key r })) :=
        of_hander rfl rfl
      apply hload.trans (ih _)

/-! ### Copies and transfers -/

/-- S3 copies an object that is there. -/
theorem replicateObject {sourceKey key : Option String}
    (hsource : sourceKey.elim false s.bucket.has = true) :
  Conserving s (LCS3Hander.replicateObject sourceKey key s)
  := by
  unfold LCS3Hander.replicateObject
  split
  · next sourceKey key =>
      intro hwf
      refine ⟨hwf, .update_bucket hsource ?_⟩
      intro c hc
      apply Or.inr ⟨sourceKey, hc⟩
  · apply refl

/-- A file is copied to a path where there is none. -/
theorem copyItem {sourcePath : Option String} {path : String} (hpath : s.disk.has path = false) :
  Conserving s (LCS3Hander.copyItem sourcePath path s)
  := by
  unfold LCS3Hander.copyItem
  split
  · next sourcePath =>
      intro hwf
      refine ⟨hwf.congr rfl rfl rfl rfl rfl, .update_disk ?_ ?_⟩
      · simpa [Disk.has] using hpath
      · intro c hc
        apply Or.inl ⟨sourcePath, hc⟩
  · apply refl

/-- What has been transferred is written to a path where there is no file, or to the bucket. -/
theorem transferred {t : AWSS3TransferUtilityTask}
    (hthere : (match t.kind with
      | .download => s.bucket.has t.key
      | _ => s.disk.has t.path) = true) :
  Conserving s (LCS3Hander.transferred t s)
  := by
  have hupload : s.disk.has t.path → Conserving s
      (s.mapBucket (fun bucket => Function.update bucket t.key (s.disk t.path))) := by
    intro hhas hwf
    refine ⟨hwf, .update_bucket hhas ?_⟩
    intro c hc
    apply Or.inl ⟨t.path, hc⟩
  rw [LCS3Hander.transferred]
  cases hkind : t.kind with
  | download =>
      dsimp only
      split
      · apply refl
      · next hhas =>
          intro hwf
          refine ⟨hwf.congr rfl rfl rfl rfl rfl, .update_disk ?_ ?_⟩
          · simpa [Disk.has] using hhas
          · intro c hc
            apply Or.inr ⟨t.key, hc⟩
  | upload =>
      rw [hkind] at hthere
      apply hupload hthere
  | multiPartUpload =>
      rw [hkind] at hthere
      apply hupload hthere

theorem endTransfer {r : TransferRef} {error : Option NSError} (hmay : mayEnd r error s) :
  Conserving s (LCS3Hander.endTransfer (quiet md5) r error s)
  := by
  rw [LCS3Hander.endTransfer]
  apply trans _ (complete r _)
  apply trans _ (setTransfer r _ _)
  split
  · apply refl
  · next herror =>
      apply transferred
      rw [mayEnd, Bool.and_eq_true, Bool.or_eq_true] at hmay
      apply hmay.2.resolve_left herror

theorem goOn {c : Continuation} {url : Option String} {error : Option NSError}
    (hmay : mayGoOn error s c) :
  Conserving s (LCS3Hander.goOn (quiet md5) url error c s)
  := by
  cases c with
  | replicate q source key =>
      cases error with
      | some error => apply copyCallback
      | none =>
          rw [mayGoOn, Option.isSome_none, Bool.false_or, Bool.and_eq_true] at hmay
          apply (replicateObject hmay.2).trans (wait _ _)
  | copyURL q source => apply (setTaskOf q _ s).trans (copyCallback error _)
  | copyItem q source =>
      rw [LCS3Hander.goOn]
      unfold copyItemAtPath
      split
      · exact of_hander rfl rfl
      · apply wait
      · next path hpath =>
          rw [mayGoOn, hpath] at hmay
          dsimp only at hmay
          rw [Option.isSome_none, Bool.false_or, Bool.and_eq_true, Bool.not_eq_true'] at hmay
          apply (copyItem hmay.2).trans (wait _ _)
  | copied q source copyError =>
      have hmd5 : Conserving s
          (if copyError.isSome then s else LCS3Hander.setMd5 (quiet md5) q s) := by
        split
        · apply refl
        · apply setTaskOf
      apply (hmd5.trans (setTaskOf q _ _)).trans (copyCallback copyError _)
  | start q kind key path =>
      cases error with
      | some error => apply finishCallback
      | none => exact of_hander rfl rfl
  | started q r => apply setObject
  | url q => apply (setTaskOf q _ s).trans (finishCallback error _)

theorem progressBlock (r : TransferRef) (completed total : Int) (s : System) :
  Conserving s (LCS3Hander.progressBlock (quiet md5) r completed total s)
  := by
  rw [LCS3Hander.progressBlock]
  split
  · apply (setTaskOf _ _ s).trans (progressCallback _)
  · apply refl

/-- Everything but an edit by the application, and the body of an answer. -/
theorem step {e : HanderEvent} (hedit : ∀ path content, e ≠ .service (.edit path content))
    (hbody : ∀ r body, e ≠ .body r body) :
  Conserving s (System.step (quiet md5) s e)
  := by
  cases e with
  | service e =>
      have hservice : Conserving s (s.mapState (fun t => LCCFileService.step (quiet md5) t e)) := by
        apply service
        rintro path content rfl
        apply hedit path content rfl
      cases e with
      | restart => exact fun _ => ⟨WellFormed.initial s.db s.disk, .of_eq rfl rfl⟩
      | progress r => apply refl
      | finish r error => apply refl
      | _ => apply hservice
  | call r =>
      rw [System.step]
      split
      · apply request
      · apply refl
  | request method task =>
      rw [System.step]
      split
      · apply request
      · apply refl
  | goOn i url error =>
      rw [System.step]
      split
      · next c _ =>
          split
          · next hmay =>
              have hdropped : Conserving s (s.dropWaiting i) := of_hander rfl rfl
              have hmay' : mayGoOn error (s.dropWaiting i) c := hmay
              apply hdropped.trans (goOn hmay')
          · apply refl
      · apply refl
  | ends r error =>
      rw [System.step]
      split
      · next hmay => apply endTransfer hmay
      · apply refl
  | body r body => apply absurd rfl (hbody r body)
  | progress r completed total =>
      rw [System.step]
      split
      · apply progressBlock
      · apply refl
  | loadHistory uploadTask multiPartUploadTask downloadTask =>
      rw [System.step]
      split
      · apply ((loadTransfers _ s).trans (loadTransfers _ _)).trans (loadTransfers _ _)
      · apply refl

end Conserving

/-! ### Runs -/

/-- The event is an edit of the file by the application. -/
def HanderEvent.Edits (path : String) (e : HanderEvent) : Prop :=
  ∃ content, e = .service (.edit path content)

/-- The application puts a file with the content on the disk, or S3 answers a download with an error
that has it as its body. -/
def HanderEvent.Puts (content : Bytes) (e : HanderEvent) : Prop :=
  (∃ path, e = .service (.edit path (some content))) ∨ ∃ r, e = .body r content

/-- From `s` to `s'`, in the event, a file changes only if the application edits it, no object goes
away, and a content comes up only if the event puts it on the disk. -/
structure ConservesUpTo (e : HanderEvent) (s s' : System) : Prop where
  files : ∀ path content, ¬ e.Edits path →
    s.disk path = some content → s'.disk path = some content
  objects : ∀ key, s.bucket.has key → s'.bucket.has key
  stored : ∀ content, Stored content s' → Stored content s ∨ e.Puts content

/-- An edit of a file. -/
theorem ConservesUpTo.edit (path : String) (content : Option Bytes) (s : System) :
  ConservesUpTo (.service (.edit path content)) s
    (s.mapDisk (fun disk => Function.update disk path content))
  := by
  constructor
  · intro path' c hedits hfile
    have hne : path' ≠ path := by
      rintro rfl
      apply hedits ⟨content, rfl⟩
    apply (Function.update_of_ne hne content s.disk).trans hfile
  · intro key hkey
    apply hkey
  · intro c hstored
    obtain hstored | rfl := stored_update_disk hstored
    · apply Or.inl hstored
    · apply Or.inr (Or.inl ⟨path, rfl⟩)

/-- The body of an answer to a download. -/
theorem ConservesUpTo.body (E : Env) (r : TransferRef) (body : Bytes) (s : System) :
  ConservesUpTo (.body r body) s (System.step E s (.body r body))
  := by
  rw [System.step]
  split
  · next hmay =>
      have hpath : s.disk (s.transfers.cell r).path = none := by
        simpa [mayMove, Disk.has] using (Bool.and_eq_true_iff.mp hmay).2
      constructor
      · intro path c _ hfile
        apply kept_update_disk hpath (some body) hfile
      · intro key hkey
        apply hkey
      · intro c hstored
        obtain hstored | hbody := stored_update_disk hstored
        · apply Or.inl hstored
        · obtain rfl := Option.some.inj hbody
          apply Or.inr (Or.inr ⟨r, rfl⟩)
  · constructor
    · intro path c _ hfile
      apply hfile
    · intro key hkey
      apply hkey
    · intro c hstored
      apply Or.inl hstored

/-- One step. -/
theorem conservesUpTo_step {md5 : Bytes → String} {s : System} (hwf : WellFormed s.toCore)
    (e : HanderEvent) :
  ConservesUpTo e s (System.step (quiet md5) s e)
  := by
  by_cases hedit : ∃ path content, e = .service (.edit path content)
  · obtain ⟨path, content, rfl⟩ := hedit
    apply ConservesUpTo.edit
  · by_cases hbody : ∃ r body, e = .body r body
    · obtain ⟨r, body, rfl⟩ := hbody
      apply ConservesUpTo.body
    · have hedits : ∀ path content, e ≠ .service (.edit path content) := by
        intro path content he
        apply hedit ⟨path, content, he⟩
      have hbodies : ∀ r body, e ≠ .body r body := by
        intro r body he
        apply hbody ⟨r, body, he⟩
      have hconserves := (@Conserving.step md5 s e hedits hbodies hwf).2
      constructor
      · intro path content _
        apply hconserves.files path content
      · apply hconserves.objects
      · intro content hstored
        apply Or.inl (hconserves.stored content hstored)

section

variable {md5 : Bytes → String} {s : System}

/-- Throughout a run in which the application does not edit a file, it keeps its content. -/
theorem throughout_file (h : Founded s) {path : String} {content : Bytes}
    (hfile : s.disk path = some content) {es : List HanderEvent}
    (hes : ∀ e ∈ es, ¬ e.Edits path) :
  Run.Throughout (System.step (quiet md5)) (fun s => s.disk path = some content) s es
  := by
  have hkept : Run.Throughout (System.step (quiet md5))
      (fun s => Founded s ∧ s.disk path = some content) s es := by
    apply Run.throughout_of_step (P := fun _ e => ¬ e.Edits path) _ ⟨h, hfile⟩
    · apply Run.along_of_mem (fun e he _ => hes e he)
    · rintro s e ⟨h, hs⟩ hedits
      exact ⟨h.step e, (conservesUpTo_step h.wellFormed e).files path content hedits hs⟩
  apply hkept.imp (fun s h => h.2)

/-- An object stays there throughout every run. -/
theorem throughout_object (h : Founded s) {key : String} (hkey : s.bucket.has key)
    (es : List HanderEvent) :
  Run.Throughout (System.step (quiet md5)) (fun s => s.bucket.has key) s es
  := by
  have hkept : Run.Throughout (System.step (quiet md5))
      (fun s => Founded s ∧ s.bucket.has key) s es := by
    apply Run.throughout_of_invariant _ ⟨h, hkey⟩
    rintro s e ⟨h, hs⟩
    exact ⟨h.step e, (conservesUpTo_step h.wellFormed e).objects key hs⟩
  apply hkept.imp (fun s h => h.2)

/-- Every content comes from before a run, or from the application. -/
theorem stored_final (h : Founded s) (es : List HanderEvent) {content : Bytes}
    (hstored : Stored content (Run.final (System.step (quiet md5)) s es)) :
  Stored content s ∨ ∃ e ∈ es, e.Puts content
  := by
  have hkept : Run.Throughout (System.step (quiet md5))
      (fun s' => Founded s' ∧ (Stored content s' → Stored content s ∨ ∃ e ∈ es, e.Puts content))
      s es := by
    apply Run.throughout_of_step (P := fun _ e => e ∈ es) _ ⟨h, Or.inl⟩
    · apply Run.along_of_mem (fun e he _ => he)
    · rintro s' e ⟨h, hs⟩ he
      refine ⟨h.step e, ?_⟩
      intro hafter
      obtain hbefore | hputs := (conservesUpTo_step h.wellFormed e).stored content hafter
      · apply hs hbefore
      · apply Or.inr ⟨e, he, hputs⟩
  apply hkept.final.2 hstored

end

end LCCFileService
