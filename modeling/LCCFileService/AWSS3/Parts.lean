import LCCFileService.AWSS3.Copies

/-!
# Uploads in parts

Files of more than 10 MB are to be uploaded in parts.  `p_startUpload:progress:finish:` decides
by the `totalSize` of the task, which is set by progress reports, by copies and from the table,
but not from the file.
-/

namespace LCCFileService

open LCS3Hander

namespace LCS3Hander

/-- The file is one to upload in parts. -/
def Large (path : String) (s : System) : Prop :=
  ∃ content, s.disk path = some content ∧ content.length > 10 * 1000 * 1000

/-- During the event the continuation comes to wait. -/
def ComesToWait (E : Env) (s : System) (e : HanderEvent) (c : Continuation) : Prop :=
  s.waiting.count c < (System.step E s e).waiting.count c

/-- An upload whose transfer is begun during the event is begun in parts exactly if its file is
large. -/
def PartsBySize (E : Env) (s : System) (e : HanderEvent) : Prop :=
  ∀ q kind key path, kind ≠ .download → ComesToWait E s e (.start q kind key path) →
    (kind = .multiPartUpload ↔ Large path s)

/-! ### Entering `p_startUpload:progress:finish:` -/

/-- The request for which `p_startUpload:progress:finish:` is entered during the event, and the
system it is entered in: after a copy that failed, or where there is nothing to copy. -/
def uploadEntered (E : Env) (s : System) (e : HanderEvent) : Option (RequestRef × System) :=
  match copyStep E s e with
  | some c =>
      if c.reports.any Option.isSome ∧ (c.after.requests.cell c.request).method = .upload then
        some (c.request, c.after)
      else none
  | none =>
      (made s e).bind (fun r =>
        if r.method = .upload then some (s.requests.next, s.addRequest r) else none)

/-- The `totalSize` of a task with a file says whether the file is large. -/
def TotalSizeTells (t : LCFileNetTask) (s : System) : Prop :=
  ∀ path content, t.filePath = some path → s.disk path = some content →
    (t.totalSize > 10 * 1000 * 1000 ↔ content.length > 10 * 1000 * 1000)

/-- Where `p_startUpload:progress:finish:` is entered for a task with a `fileKey`, the `totalSize`
of the task says whether its file is large. -/
def SizeKnown (E : Env) (s : System) (e : HanderEvent) : Prop :=
  ∀ q s', uploadEntered E s e = some (q, s') → (s'.taskOfRequest q).fileKey.isSome →
    TotalSizeTells (s'.taskOfRequest q) s'

/-- No upload comes to wait for its transfer from `s` to `s'`. -/
def StartsNoUpload (s s' : System) : Prop :=
  ∀ q kind key path, kind ≠ .download →
    s'.waiting.count (.start q kind key path) ≤ s.waiting.count (.start q kind key path)

namespace StartsNoUpload

variable {E : Env} {s s' s'' : System}

theorem of_eq (h : s'.waiting = s.waiting) :
  StartsNoUpload s s'
  := by
  intro q kind key path hkind
  rw [h]

theorem trans (h : StartsNoUpload s s') (h' : StartsNoUpload s' s'') :
  StartsNoUpload s s''
  := fun q kind key path hkind => (h' q kind key path hkind).trans (h q kind key path hkind)

/-- What comes to wait is not the transfer of an upload. -/
theorem wait {c : Continuation}
    (hc : ∀ q kind key path, kind ≠ .download → c ≠ .start q kind key path) (s : System) :
  StartsNoUpload s (s.wait c)
  := by
  intro q kind key path hkind
  have hwaiting : (s.wait c).waiting = s.waiting ++ [c] := rfl
  rw [hwaiting, List.count_append, List.count_singleton]
  simp [hc q kind key path hkind]

theorem dropWaiting (i : Nat) (s : System) :
  StartsNoUpload s (s.dropWaiting i)
  := fun _ _ _ _ _ => (List.eraseIdx_sublist s.waiting i).count_le _

theorem finishCallback (q : RequestRef) (error : Option NSError) (s : System) :
  StartsNoUpload s (LCS3Hander.finishCallback E q error s)
  := by
  apply of_eq
  rw [LCS3Hander.finishCallback]
  split
  · rfl
  · rfl

theorem pStartDownload (q : RequestRef) (s : System) :
  StartsNoUpload s (LCS3Hander.pStartDownload E q s)
  := by
  rw [LCS3Hander.pStartDownload]
  split
  · apply wait
    rintro q' kind key path hkind ⟨⟩
    apply hkind rfl
  · apply finishCallback

/-- What is done instead of copying is the start of an upload only for the upload method. -/
theorem fallback (q : RequestRef) (s : System) (hmethod : (s.requests.cell q).method ≠ .upload) :
  StartsNoUpload s (LCS3Hander.fallback E q s)
  := by
  rw [LCS3Hander.fallback, if_neg hmethod]
  apply pStartDownload

/-- A step of a copy starts no upload, unless it reports an error to the upload method. -/
theorem result {c : CopyStep} (hafter : StartsNoUpload s c.after)
    (hc : ¬ (c.reports.any Option.isSome ∧
      (c.after.requests.cell c.request).method = .upload)) :
  StartsNoUpload s (c.result E)
  := by
  obtain ⟨q, before, after, reports⟩ := c
  cases reports with
  | none => apply hafter
  | some reports =>
      cases reports with
      | none =>
          have hprogress := Pledges.toHander_progressCallback (E := E) q after
          have hsame : StartsNoUpload after (progressCallback E q after) := by
            apply of_eq
            rw [hprogress]
          apply hafter.trans (hsame.trans (finishCallback q none _))
      | some error =>
          apply hafter.trans
          apply fallback
          intro hmethod
          apply hc ⟨rfl, hmethod⟩

theorem answerCompletion (kind : TransferKind) (q : RequestRef) (error : Option NSError)
    (s : System) :
  StartsNoUpload s (LCS3Hander.answerCompletion E kind q error s)
  := by
  rw [LCS3Hander.answerCompletion]
  split
  · apply finishCallback
  · split
    · have hmd5 : StartsNoUpload s (setMd5 E q s) := of_eq rfl
      apply hmd5.trans (finishCallback q none _)
    · apply wait
      rintro q' kind key path - ⟨⟩

theorem complete (transfer : TransferRef) (s : System) :
  StartsNoUpload s (LCS3Hander.complete E transfer s)
  := by
  rw [LCS3Hander.complete]
  split
  · next handler hhandler =>
      have hanswer := answerCompletion (E := E) (s.transfers.cell transfer).kind handler.request
        (s.transfers.cell transfer).error s
      apply hanswer.trans
      apply of_eq
      rw [runCompletionHandler]
      split
      · rw [removeObject]
        split
        · rfl
        · rfl
      · rfl
  · apply of_eq rfl

theorem resumTask (takes : TransferKind → Bool) (q : RequestRef) (s : System) :
  StartsNoUpload s (LCS3Hander.resumTask E takes q s)
  := by
  rw [LCS3Hander.resumTask]
  split
  · next transfer _ =>
      split
      · have hsend : StartsNoUpload s (setCompletionHandler E transfer ⟨q, false⟩ s) := by
          rw [setCompletionHandler]
          split
          · apply (of_eq rfl).trans (complete transfer _)
          · apply of_eq rfl
        apply hsend.trans (of_eq rfl)
      · apply of_eq rfl
  · apply finishCallback

/-- A request to another method than those that upload and download starts no upload. -/
theorem callMethod {q : RequestRef} {s : System}
    (hupload : (s.requests.cell q).method ≠ .upload)
    (hdownload : (s.requests.cell q).method ≠ .download) :
  StartsNoUpload s (LCS3Hander.callMethod E q s)
  := by
  rw [LCS3Hander.callMethod]
  split
  · next hmethod => exact absurd hmethod hupload
  · next hmethod => exact absurd hmethod hdownload
  · apply resumTask
  · apply resumTask
  · rw [lcFileNetHanderCancelTask]
    split
    · apply of_eq rfl
    · apply of_eq rfl
  · rw [lcFileNetHanderPauseTask]
    split
    · apply of_eq rfl
    · apply of_eq rfl

theorem loadTransfers (transfers : List TransferRef) (s : System) :
  StartsNoUpload s (LCS3Hander.loadTransfers transfers s)
  := by
  rw [LCS3Hander.loadTransfers]
  induction transfers generalizing s with
  | nil => apply of_eq rfl
  | cons transfer transfers ih => apply (of_eq rfl).trans (ih _)

/-- What goes on without being a step of a copy starts no upload. -/
theorem goOn {url : Option String} {error : Option NSError} {w : Continuation}
    (h : copyGoesOn E url error w s = none) :
  StartsNoUpload s (LCS3Hander.goOn E url error w s)
  := by
  cases w with
  | replicate q source key =>
      cases error with
      | some error => cases h
      | none => cases h
  | copyURL q source => cases h
  | copyItem q source => cases h
  | copied q source copyError => cases h
  | start q kind key path =>
      cases error with
      | some error => apply finishCallback
      | none =>
          apply (of_eq rfl).trans
          apply wait
          rintro q' kind key path - ⟨⟩
  | started q r =>
      apply of_eq
      rw [LCS3Hander.goOn, setObject]
      split
      · rfl
      · rfl
  | url q =>
      have htask : StartsNoUpload s (s.setTaskOf q (fun task => { task with url })) := of_eq rfl
      apply htask.trans (finishCallback q error _)

theorem replicateObject (sourceKey key : Option String) (s : System) :
  (LCS3Hander.replicateObject sourceKey key s).waiting = s.waiting
  := by
  cases sourceKey with
  | none => rfl
  | some sourceKey =>
      cases key with
      | none => rfl
      | some key => rfl

theorem copyItem (sourcePath : Option String) (path : String) (s : System) :
  (LCS3Hander.copyItem sourcePath path s).waiting = s.waiting
  := by
  cases sourcePath with
  | none => rfl
  | some sourcePath => rfl

/-- What a step of a copy itself does is no start of an upload. -/
theorem copyGoesOn {url : Option String} {error : Option NSError} {w : Continuation}
    {c : CopyStep} (h : LCS3Hander.copyGoesOn E url error w s = some c) :
  StartsNoUpload s c.after
  := by
  cases w with
  | replicate q source key =>
      cases error with
      | some error =>
          obtain rfl := Option.some.inj h
          apply of_eq rfl
      | none =>
          obtain rfl := Option.some.inj h
          apply (of_eq (replicateObject source.fileKey key s)).trans
          apply wait
          rintro q' kind key path - ⟨⟩
  | copyURL q source =>
      obtain rfl := Option.some.inj h
      apply of_eq rfl
  | copyItem q source =>
      obtain rfl := Option.some.inj h
      dsimp only
      unfold copyItemAtPath
      split
      · apply of_eq rfl
      · apply wait
        rintro q' kind key path - ⟨⟩
      · next path _ =>
          apply (of_eq (copyItem source.filePath path s)).trans
          apply wait
          rintro q' kind key path - ⟨⟩
  | copied q source copyError =>
      obtain rfl := Option.some.inj h
      cases copyError with
      | none => apply of_eq rfl
      | some copyError => apply of_eq rfl
  | start q kind key path => cases h
  | started q r => cases h
  | url q => cases h

theorem copyBegins (q : RequestRef) (source : LCFileNetTaskRow) (s : System) :
  StartsNoUpload s (LCS3Hander.copyBegins q source s).after
  := by
  cases htype : (s.taskOfRequest q).type with
  | upload =>
      simp only [LCS3Hander.copyBegins, htype]
      apply wait
      rintro q' kind key path - ⟨⟩
  | download =>
      simp only [LCS3Hander.copyBegins, htype]
      split
      · apply wait
        rintro q' kind key path - ⟨⟩
      · apply of_eq rfl
  | unknown =>
      simp only [LCS3Hander.copyBegins, htype]
      apply of_eq rfl

/-- What a step of a copy itself does during an event is no start of an upload. -/
theorem copyStep {e : HanderEvent} {c : CopyStep} (h : LCS3Hander.copyStep E s e = some c) :
  StartsNoUpload s c.after
  := by
  obtain ⟨r, source, -, -, rfl⟩ | ⟨i, url, error, w, rfl, -, -, h⟩ := copyStep_cases h
  · have hrequest : StartsNoUpload s (s.addRequest r) := of_eq rfl
    apply hrequest.trans (copyBegins _ source _)
  · apply (dropWaiting i s).trans (copyGoesOn h)

/-- A request that is no step of a copy starts an upload only if its method is to upload. -/
theorem request {e : HanderEvent} {r : Request} (hr : made s e = some r)
    (hcopy : candidate s.requests.next (s.addRequest r) = none) (hmethod : r.method ≠ .upload) :
  StartsNoUpload s (System.step E s e)
  := by
  have hcell : (s.addRequest r).requests.cell s.requests.next = r := Heap.cell_alloc_next _ _
  have hrequest : StartsNoUpload s (s.addRequest r) := of_eq rfl
  rw [step_eq_request hr, LCS3Hander.request]
  apply hrequest.trans
  by_cases hdownload : r.method = .download
  · rw [callMethod_of_no_candidate hcopy (by rw [hcell]; exact Or.inr hdownload)]
    apply fallback
    rwa [hcell]
  · apply callMethod
    · rwa [hcell]
    · rwa [hcell]

/-- The end of a transfer starts no upload. -/
theorem endTransfer (r : TransferRef) (error : Option NSError) (s : System) :
  StartsNoUpload s (LCS3Hander.endTransfer E r error s)
  := by
  rw [LCS3Hander.endTransfer]
  apply StartsNoUpload.trans _ (complete r _)
  apply of_eq
  split
  · rfl
  · rw [System.setTransfer, transferred]
    split
    · split
      · rfl
      · rfl
    · rfl

/-- What a transfer reports starts no upload. -/
theorem progressBlock (r : TransferRef) (completed total : Int) (s : System) :
  StartsNoUpload s (LCS3Hander.progressBlock E r completed total s)
  := by
  rw [LCS3Hander.progressBlock]
  split
  · apply of_eq
    rw [Pledges.toHander_progressCallback]
    rfl
  · apply of_eq rfl

/-- An event that makes no request and is no step of a copy starts no upload. -/
theorem other {e : HanderEvent} (hmade : made s e = none)
    (hcopy : LCS3Hander.copyStep E s e = none) :
  StartsNoUpload s (System.step E s e)
  := by
  cases e with
  | service e =>
      cases e with
      | restart =>
          intro q kind key path hkind
          apply Nat.zero_le
      | _ => apply of_eq rfl
  | call r =>
      rw [made] at hmade
      split at hmade
      · cases hmade
      · next hcalled =>
          rw [System.step, if_neg hcalled]
          apply of_eq rfl
  | request method task =>
      rw [made] at hmade
      split at hmade
      · cases hmade
      · next htask =>
          rw [System.step, if_neg htask]
          apply of_eq rfl
  | goOn i url error =>
      rw [System.step]
      split
      · next w hw =>
          rw [LCS3Hander.copyStep, hw, Option.bind_some] at hcopy
          split
          · next hmay =>
              rw [if_pos hmay] at hcopy
              apply (dropWaiting i s).trans (goOn hcopy)
          · apply of_eq rfl
      · apply of_eq rfl
  | ends r error =>
      rw [System.step]
      split
      · apply endTransfer r error s
      · apply of_eq rfl
  | body r body =>
      rw [System.step]
      split
      · apply of_eq rfl
      · apply of_eq rfl
  | progress r completed total =>
      rw [System.step]
      split
      · apply progressBlock r completed total s
      · apply of_eq rfl
  | loadHistory uploadTask multiPartUploadTask downloadTask =>
      rw [System.step]
      split
      · apply ((loadTransfers uploadTask s).trans (loadTransfers multiPartUploadTask _)).trans
        apply loadTransfers
      · apply of_eq rfl

/-- Where `p_startUpload:progress:finish:` is not entered, no upload is started. -/
theorem step {e : HanderEvent} (h : uploadEntered E s e = none) :
  StartsNoUpload s (System.step E s e)
  := by
  cases hcopy : LCS3Hander.copyStep E s e with
  | some c =>
      rw [step_eq_result hcopy]
      apply result (copyStep hcopy)
      intro hreports
      simp [uploadEntered, hcopy, hreports] at h
  | none =>
      cases hmade : made s e with
      | none => apply other hmade hcopy
      | some r =>
          rw [copyStep_of_made hmade, Option.map_eq_none_iff] at hcopy
          apply request hmade hcopy
          intro hmethod
          simp [uploadEntered, copyStep_of_made, hcopy, hmade, hmethod] at h

end StartsNoUpload

/-! ### Uploads begun -/

section

variable {E : Env} {s s' : System} {q : RequestRef}

/-- A step of a copy that reports an error changes no file, and starts no transfer. -/
theorem copyGoesOn_failed {url : Option String} {error : Option NSError} {w : Continuation}
    {c : CopyStep} (h : copyGoesOn E url error w s = some c)
    (hreports : c.reports.any Option.isSome) :
  c.after.disk = s.disk ∧ c.after.waiting = s.waiting ∧ ∀ q kind key path,
    w ≠ .start q kind key path
  := by
  cases w with
  | replicate q source key =>
      cases error with
      | some error =>
          obtain rfl := Option.some.inj h
          exact ⟨rfl, rfl, by simp⟩
      | none =>
          obtain rfl := Option.some.inj h
          cases hreports
  | copyURL q source =>
      obtain rfl := Option.some.inj h
      exact ⟨rfl, rfl, by simp⟩
  | copyItem q source =>
      obtain rfl := Option.some.inj h
      cases hreports
  | copied q source copyError =>
      obtain rfl := Option.some.inj h
      cases copyError with
      | none => cases hreports
      | some copyError => exact ⟨rfl, rfl, by simp⟩
  | start q kind key path => cases h
  | started q r => cases h
  | url q => cases h

/-- A first step of a copy that reports an error changes nothing. -/
theorem copyBegins_failed {source : LCFileNetTaskRow}
    (hreports : (copyBegins q source s).reports.any Option.isSome) :
  (copyBegins q source s).after = s
  := by
  cases htype : (s.taskOfRequest q).type with
  | upload => simp [copyBegins, htype] at hreports
  | download =>
      simp only [copyBegins, htype] at hreports ⊢
      split at hreports
      · cases hreports
      · next hfile => rw [if_neg hfile]
  | unknown => simp only [copyBegins, htype]

/-- What waits to start is the same without a continuation that is no start. -/
theorem count_dropWaiting {i : Nat} {w c : Continuation} (hw : s.waiting[i]? = some w)
    (hne : w ≠ c) :
  (s.dropWaiting i).waiting.count c = s.waiting.count c
  := by
  obtain ⟨hi, rfl⟩ := List.getElem?_eq_some_iff.mp hw
  have hcount := (List.getElem_cons_eraseIdx_perm hi).count_eq c
  rw [List.count_cons, if_neg (by simpa using hne), Nat.add_zero] at hcount
  apply hcount

/-- A step of a copy that reports an error during an event changes no file, and starts no
transfer. -/
theorem copyStep_failed {e : HanderEvent} {c : CopyStep} (h : copyStep E s e = some c)
    (hreports : c.reports.any Option.isSome) :
  c.after.disk = s.disk ∧ ∀ q kind key path,
    c.after.waiting.count (.start q kind key path) = s.waiting.count (.start q kind key path)
  := by
  obtain ⟨r, source, -, -, rfl⟩ | ⟨i, url, error, w, rfl, hw, -, h⟩ := copyStep_cases h
  · rw [copyBegins_failed hreports]
    exact ⟨rfl, fun _ _ _ _ => rfl⟩
  · obtain ⟨hdisk, hwaiting, hne⟩ := copyGoesOn_failed h hreports
    refine ⟨hdisk, ?_⟩
    intro q kind key path
    rw [hwaiting, count_dropWaiting hw (hne q kind key path)]

/-- Where `p_startUpload:progress:finish:` is entered, what happens is what it does, with the files
of before the event. -/
theorem step_eq_pStartUpload {e : HanderEvent} (h : uploadEntered E s e = some (q, s')) :
  System.step E s e = pStartUpload E q s' ∧ s'.disk = s.disk ∧ ∀ q kind key path,
    s'.waiting.count (.start q kind key path) = s.waiting.count (.start q kind key path)
  := by
  rw [uploadEntered] at h
  split at h
  · next c hcopy =>
      split at h
      · next hc =>
          obtain ⟨hreports, hmethod⟩ := hc
          obtain ⟨rfl, rfl⟩ := Prod.mk.inj (Option.some.inj h)
          refine ⟨?_, copyStep_failed hcopy hreports⟩
          obtain ⟨error, herror, hsome⟩ := (Option.any_eq_true _ _).mp hreports
          rw [step_eq_result hcopy, CopyStep.result, herror]
          dsimp only
          rw [copyCallback, if_pos hsome, if_pos hmethod]
      · cases h
  · next hcopy =>
      obtain ⟨r, hmade, h⟩ := Option.bind_eq_some_iff.mp h
      split at h
      · next hmethod =>
          obtain ⟨rfl, rfl⟩ := Prod.mk.inj (Option.some.inj h)
          refine ⟨?_, rfl, fun _ _ _ _ => rfl⟩
          have hcell : (s.addRequest r).requests.cell s.requests.next = r :=
            Heap.cell_alloc_next _ _
          rw [copyStep_of_made hmade, Option.map_eq_none_iff] at hcopy
          rw [step_eq_request hmade, request,
            callMethod_of_no_candidate hcopy (by rw [hcell]; exact Or.inl hmethod), fallback,
            hcell, if_pos hmethod]
      · cases h

/-- The kind of the transfer that `p_startUpload:progress:finish:` begins for a task. -/
def kindFor (t : LCFileNetTask) : TransferKind :=
  if t.totalSize > 10 * 1000 * 1000 then .multiPartUpload else .upload

theorem kindFor_eq_multiPartUpload {t : LCFileNetTask} :
  kindFor t = .multiPartUpload ↔ t.totalSize > 10 * 1000 * 1000
  := by
  rw [kindFor]
  split
  · next h => exact iff_of_true rfl h
  · next h => exact iff_of_false (by rintro ⟨⟩) h

/-- A task with a `fileKey` and a file waits for its transfer. -/
theorem pStartUpload_of_file {fileKey filePath : String} {content : Bytes}
    (hkey : (s.taskOfRequest q).fileKey = some fileKey)
    (hpath : (s.taskOfRequest q).filePath = some filePath)
    (hcontent : s.disk filePath = some content) :
  pStartUpload E q s = s.wait (.start q (kindFor (s.taskOfRequest q)) fileKey filePath)
  := by
  have hfile : s.disk.has filePath := by
    rw [Disk.has, hcontent]
    rfl
  rw [pStartUpload, hkey, hpath]
  dsimp only
  rw [if_pos hfile, kindFor]

/-- Only a task with a `fileKey` and a file waits for its transfer. -/
theorem file_of_pStartUpload {c : Continuation}
    (hc : s.waiting.count c < (pStartUpload E q s).waiting.count c) :
  ∃ fileKey filePath content, (s.taskOfRequest q).fileKey = some fileKey ∧
    (s.taskOfRequest q).filePath = some filePath ∧ s.disk filePath = some content ∧
    c = .start q (kindFor (s.taskOfRequest q)) fileKey filePath
  := by
  have hrefused : (finishCallback E q uploadError s).waiting = s.waiting := by
    rw [finishCallback]
    split
    · rfl
    · rfl
  cases hkey : (s.taskOfRequest q).fileKey with
  | none =>
      rw [pStartUpload, hkey] at hc
      dsimp only at hc
      rw [hrefused] at hc
      apply absurd hc (lt_irrefl _)
  | some fileKey =>
      cases hpath : (s.taskOfRequest q).filePath with
      | none =>
          rw [pStartUpload, hkey, hpath] at hc
          dsimp only at hc
          rw [hrefused] at hc
          apply absurd hc (lt_irrefl _)
      | some filePath =>
          cases hcontent : s.disk filePath with
          | none =>
              have hfile : ¬ s.disk.has filePath := by
                rw [Disk.has, hcontent]
                rintro ⟨⟩
              rw [pStartUpload, hkey, hpath] at hc
              dsimp only at hc
              rw [if_neg hfile, hrefused] at hc
              apply absurd hc (lt_irrefl _)
          | some content =>
              refine ⟨fileKey, filePath, content, rfl, rfl, hcontent, ?_⟩
              have hwaiting : (s.wait (.start q (kindFor (s.taskOfRequest q)) fileKey
                  filePath)).waiting = s.waiting ++ [.start q (kindFor (s.taskOfRequest q)) fileKey
                  filePath] := rfl
              rw [pStartUpload_of_file hkey hpath hcontent, hwaiting, List.count_append,
                List.count_singleton] at hc
              by_contra hne
              rw [if_neg (by simpa using Ne.symm hne)] at hc
              apply absurd hc (lt_irrefl _)

theorem large_iff {path : String} {content : Bytes} (h : s.disk path = some content) :
  Large path s ↔ content.length > 10 * 1000 * 1000
  := by
  rw [Large, h]
  simp

/-- The uploads begun during an event are begun in parts by the size of their files exactly if
their sizes are known. -/
theorem partsBySize_iff (e : HanderEvent) :
  PartsBySize E s e ↔ SizeKnown E s e
  := by
  constructor
  · intro h q s' hentered hkey path content hpath hcontent
    obtain ⟨fileKey, hkey⟩ := Option.isSome_iff_exists.mp hkey
    obtain ⟨hstep, hdisk, hcount⟩ := step_eq_pStartUpload hentered
    rw [← kindFor_eq_multiPartUpload, ← large_iff (s := s) (by rw [← hdisk, hcontent])]
    apply h q (kindFor (s'.taskOfRequest q)) fileKey path
    · rw [kindFor]
      split
      · rintro ⟨⟩
      · rintro ⟨⟩
    · rw [ComesToWait, hstep, pStartUpload_of_file hkey hpath hcontent]
      have hwaiting : (s'.wait (.start q (kindFor (s'.taskOfRequest q)) fileKey path)).waiting
          = s'.waiting ++ [.start q (kindFor (s'.taskOfRequest q)) fileKey path] := rfl
      rw [hwaiting, List.count_append, List.count_singleton_self, hcount]
      apply Nat.lt_succ_self _
  · intro h q kind key path hkind hcomes
    cases hentered : uploadEntered E s e with
    | none => apply absurd hcomes (Nat.not_lt.mpr (StartsNoUpload.step hentered _ _ _ _ hkind))
    | some entered =>
        obtain ⟨q', s'⟩ := entered
        obtain ⟨hstep, hdisk, hcount⟩ := step_eq_pStartUpload hentered
        rw [ComesToWait, hstep, ← hcount] at hcomes
        obtain ⟨fileKey, filePath, content, hkey, hpath, hcontent, hstart⟩ :=
          file_of_pStartUpload hcomes
        obtain ⟨rfl, rfl, rfl, rfl⟩ := Continuation.start.inj hstart
        rw [kindFor_eq_multiPartUpload, large_iff (s := s) (by rw [← hdisk, hcontent])]
        apply h q s' hentered (by rw [hkey]; rfl) path content hpath hcontent

end

end LCS3Hander

/-! ### Whole runs -/

/-- In a run every upload is begun in parts exactly if its file is large, if and only if the
`totalSize` of every task says so when its upload is begun. -/
theorem along_partsBySize_iff (E : Env) (s : System) (es : List HanderEvent) :
  Run.Along (System.step E) (PartsBySize E) s es ↔ Run.Along (System.step E) (SizeKnown E) s es
  := Run.along_congr (fun _ => partsBySize_iff) s es

/-- A file of more than 10 MB. -/
def largeFile : System :=
  System.initial (Table.empty _)
    (fun path => if path = "/a" then some (List.replicate 10000001 0) else none) Heap.empty
    (fun _ => none)

/-- The file is uploaded. -/
def uploadOfLargeFile : List HanderEvent :=
  [.service (.addHander 0),
    .service (.create { taskId := "a", fileKey := "k", filePath := "/a", type := .upload }),
    .service (.startTask 0), .service (.opStart 0)]

/-- A new task has the `totalSize` 0, so that its file is not uploaded in parts, however large. -/
theorem not_along_partsBySize_uploadOfLargeFile :
  ¬ Run.Along (System.step (quiet fun _ => "m")) (PartsBySize (quiet fun _ => "m")) largeFile
      (uploadOfLargeFile ++ [.call 0])
  := by
  intro h
  obtain ⟨-, hlast, -⟩ := (Run.along_append _ _ _).mp h
  have hcomes : ComesToWait (quiet fun _ => "m")
      (Run.final (System.step (quiet fun _ => "m")) largeFile uploadOfLargeFile) (.call 0)
      (.start 0 .upload "k" "/a") := by
    unfold ComesToWait
    decide +kernel
  have hlarge : Large "/a"
      (Run.final (System.step (quiet fun _ => "m")) largeFile uploadOfLargeFile) := by
    use List.replicate 10000001 0, rfl
    rw [List.length_replicate]
    decide
  have hparts := (hlast 0 .upload "k" "/a" (by decide) hcomes).mpr hlarge
  cases hparts

end LCCFileService
