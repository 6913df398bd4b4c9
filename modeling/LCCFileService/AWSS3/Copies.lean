import LCCFileService.AWSS3.Answers

/-!
# Copies that fail

An upload or a download that finds a finished task first tries to copy from it, and falls back
to a transfer when the copy fails.  A step of a copy is what `p_copyTask:from:callback:` does
during one event; it reports when it calls its callback.  A copy that fails leaves no trace on
its task if the task is as it was before each of its steps; it then falls back as if there had
been nothing to copy.
-/

namespace LCCFileService

open LCS3Hander

namespace LCS3Hander

/-! ### Steps of a copy -/

/-- A step of a copy: the request, the system before and after what `p_copyTask:from:callback:`
itself does, and the error it reports, if it reports. -/
structure CopyStep where
  request : RequestRef
  before : System
  after : System
  reports : Option (Option NSError)

/-- The system after the step and the call of the callback. -/
def CopyStep.result (E : Env) (c : CopyStep) : System :=
  match c.reports with
  | some error => copyCallback E c.request error c.after
  | none => c.after

/-- The finished task that the upload and the download method look up to copy from. -/
def candidate (q : RequestRef) (s : System) : Option LCFileNetTaskRow :=
  match (s.requests.cell q).method with
  | .upload => finished (LCFileTaskDB.lcGetTaskByMd5 (s.taskOfRequest q).md5 s.db)
  | .download => finished (LCFileTaskDB.lcGetTaskByFileKey (s.taskOfRequest q).fileKey s.db)
  | _ => none

/-- The first step of a copy. -/
def copyBegins (q : RequestRef) (sourceTask : LCFileNetTaskRow) (s : System) : CopyStep :=
  let targetTask := s.taskOfRequest q
  match targetTask.type with
  | .upload => ⟨q, s, s.wait (.replicate q sourceTask targetTask.fileKey), none⟩
  | .download =>
      if sourceTask.filePath.elim false s.disk.has then
        ⟨q, s, s.wait (.copyItem q sourceTask), none⟩
      else ⟨q, s, s, some (some fileError)⟩
  | .unknown => ⟨q, s, s, some (some typeError)⟩

/-- The step of a copy that a continuation is. -/
def copyGoesOn (E : Env) (url : Option String) (error : Option NSError) :
    Continuation → System → Option CopyStep
  | .replicate q source key, s =>
      match error with
      | some error => some ⟨q, s, s, some (some error)⟩
      | none => some ⟨q, s, (replicateObject source.fileKey key s).wait (.copyURL q source), none⟩
  | .copyURL q source, s =>
      some ⟨q, s,
        s.setTaskOf q (fun task => { task with
          url
          finishedSize := source.finishedSize
          totalSize := source.totalSize }),
        some error⟩
  | .copyItem q source, s => some ⟨q, s, copyItemAtPath q source error s, none⟩
  | .copied q source copyError, s =>
      some ⟨q, s,
        (if copyError.isSome then s else setMd5 E q s)
          |>.setTaskOf q (fun task => { task with
            finishedSize := source.finishedSize
            totalSize := source.totalSize }),
        some copyError⟩
  | _, _ => none

/-- The step of a copy that is made during the event. -/
def copyStep (E : Env) (s : System) : HanderEvent → Option CopyStep
  | .goOn i url error =>
      s.waiting[i]?.bind (fun c =>
        if mayGoOn error s c then copyGoesOn E url error c (s.dropWaiting i) else none)
  | e =>
      (made s e).bind (fun r =>
        (candidate s.requests.next (s.addRequest r)).map
          (fun source => copyBegins s.requests.next source (s.addRequest r)))

section

variable {E : Env} {q : RequestRef} {s : System} {c : CopyStep}

theorem pCopyTask_eq_result (source : LCFileNetTaskRow) :
  pCopyTask E q source s = (copyBegins q source s).result E
  := by
  cases htype : (s.taskOfRequest q).type with
  | upload =>
      simp only [pCopyTask, copyBegins, htype]
      rfl
  | download =>
      simp only [pCopyTask, copyBegins, htype]
      split
      · rfl
      · rfl
  | unknown =>
      simp only [pCopyTask, copyBegins, htype]
      rfl

/-- The upload and the download method copy exactly if they find a task to copy from. -/
theorem callMethod_of_candidate {source : LCFileNetTaskRow} (h : candidate q s = some source) :
  callMethod E q s = pCopyTask E q source s
  := by
  rw [candidate] at h
  rw [callMethod]
  split at h
  · next hmethod => rw [hmethod, lcFileNetHanderUpload, h]
  · next hmethod => rw [hmethod, lcFileNetHanderDownload, h]
  · cases h

theorem goOn_eq_result {url : Option String} {error : Option NSError} {w : Continuation}
    (h : copyGoesOn E url error w s = some c) :
  goOn E url error w s = c.result E
  := by
  cases w with
  | replicate q source key =>
      cases error with
      | some error => obtain rfl := Option.some.inj h; rfl
      | none => obtain rfl := Option.some.inj h; rfl
  | copyURL q source => obtain rfl := Option.some.inj h; rfl
  | copyItem q source => obtain rfl := Option.some.inj h; rfl
  | copied q source copyError => obtain rfl := Option.some.inj h; rfl
  | start q kind key path => cases h
  | started q r => cases h
  | url q => cases h

theorem step_eq_request {e : HanderEvent} {r : Request} (h : made s e = some r) :
  System.step E s e = request E r s
  := by
  cases e with
  | call r =>
      rw [made] at h
      split at h
      · next huncalled =>
          obtain rfl := Option.some.inj h
          rw [System.step, if_pos huncalled]
      · cases h
  | request method task =>
      rw [made] at h
      split at h
      · next htask =>
          obtain rfl := Option.some.inj h
          rw [System.step, if_pos htask]
      · cases h
  | service e => cases h
  | goOn i url error => cases h
  | ends r error => cases h
  | body r body => cases h
  | progress r completed total => cases h
  | loadHistory uploadTask multiPartUploadTask downloadTask => cases h

/-- A request makes the first step of a copy exactly if there is a task to copy from. -/
theorem copyStep_of_made {e : HanderEvent} {r : Request} (h : made s e = some r) :
  copyStep E s e = (candidate s.requests.next (s.addRequest r)).map
    (fun source => copyBegins s.requests.next source (s.addRequest r))
  := by
  have hbind : copyStep E s e = (made s e).bind (fun r =>
      (candidate s.requests.next (s.addRequest r)).map
        (fun source => copyBegins s.requests.next source (s.addRequest r))) := by
    cases e with
    | goOn i url error => cases h
    | _ => rfl
  rw [hbind, h, Option.bind_some]

/-- A step of a copy is made by a request for which there is a task to copy from, or by a step of a
copy that waits and may go on. -/
theorem copyStep_cases {e : HanderEvent} (h : copyStep E s e = some c) :
  (∃ r source, made s e = some r ∧ candidate s.requests.next (s.addRequest r) = some source ∧
      c = copyBegins s.requests.next source (s.addRequest r)) ∨
    ∃ i url error w, e = .goOn i url error ∧ s.waiting[i]? = some w ∧ mayGoOn error s w ∧
      copyGoesOn E url error w (s.dropWaiting i) = some c
  := by
  cases hmade : made s e with
  | some r =>
      rw [copyStep_of_made hmade] at h
      obtain ⟨source, hsource, rfl⟩ := Option.map_eq_some_iff.mp h
      exact Or.inl ⟨r, source, rfl, hsource, rfl⟩
  | none =>
      right
      cases e with
      | goOn i url error =>
          obtain ⟨w, hw, h⟩ := Option.bind_eq_some_iff.mp h
          split at h
          · next hmay => exact ⟨i, url, error, w, rfl, hw, hmay, h⟩
          · cases h
      | _ =>
          simp only [copyStep, hmade] at h
          cases h

/-- What happens during an event that is a step of a copy is the step, and the call of the callback
if the step reports. -/
theorem step_eq_result {e : HanderEvent} (h : copyStep E s e = some c) :
  System.step E s e = c.result E
  := by
  obtain ⟨r, source, hr, hsource, rfl⟩ | ⟨i, url, error, w, rfl, hw, hmay, h⟩ := copyStep_cases h
  · rw [step_eq_request hr, request, callMethod_of_candidate hsource, pCopyTask_eq_result]
  · rw [System.step, hw]
    dsimp only
    rw [if_pos hmay]
    apply goOn_eq_result h

/-! ### The trace of a copy -/

/-- What the upload and the download method do when they do not copy. -/
def fallback (E : Env) (q : RequestRef) (s : System) : System :=
  if (s.requests.cell q).method = .upload then pStartUpload E q s else pStartDownload E q s

/-- Where there is no task to copy from, the upload and the download method fall back. -/
theorem callMethod_of_no_candidate (h : candidate q s = none)
    (hmethod : (s.requests.cell q).method = .upload ∨ (s.requests.cell q).method = .download) :
  callMethod E q s = fallback E q s
  := by
  rcases hmethod with hmethod | hmethod
  · simp only [candidate, hmethod] at h
    simp only [callMethod, hmethod, lcFileNetHanderUpload, h, fallback, if_true]
  · simp only [candidate, hmethod] at h
    simp only [callMethod, hmethod, lcFileNetHanderDownload, h, fallback]
    rfl

end

/-- What a copy writes on a task is as before. -/
structure SameAsBefore (t t' : LCFileNetTask) : Prop where
  md5 : t'.md5 = t.md5
  url : t'.url = t.url
  finishedSize : t'.finishedSize = t.finishedSize
  totalSize : t'.totalSize = t.totalSize

/-- A step of a copy that does not report a success leaves the task as it was, and one that reports
an error is followed by what would be done if there were nothing to copy. -/
def LeavesNoTrace (E : Env) (s : System) (e : HanderEvent) : Prop :=
  ∀ c, copyStep E s e = some c → c.reports ≠ some none →
    SameAsBefore (c.before.taskOfRequest c.request) (c.after.taskOfRequest c.request) ∧
      ∀ error, c.reports = some (some error) →
        System.step E s e = fallback E c.request c.before

/-- The sizes of the task are those of the finished task. -/
def SizedLike (source : LCFileNetTaskRow) (t : LCFileNetTask) : Prop :=
  t.finishedSize = source.finishedSize ∧ t.totalSize = source.totalSize

/-- A failure after the object was copied, or of the copying of the file, finds on the task what it
writes there. -/
def FindsWhatItWrites (url : Option String) (error : Option NSError) (s : System) :
    Continuation → Prop
  | .copyURL q source =>
      error.isSome → (s.taskOfRequest q).url = url ∧ SizedLike source (s.taskOfRequest q)
  | .copied q source copyError => copyError.isSome → SizedLike source (s.taskOfRequest q)
  | _ => True

/-- A copy that fails during the event finds on the task what it writes there. -/
def FailsWithoutWriting (s : System) : HanderEvent → Prop
  | .goOn i url error => ∀ c ∈ s.waiting[i]?, FindsWhatItWrites url error s c
  | _ => True

section

variable {E : Env} {q : RequestRef} {s : System} {c : CopyStep}

theorem taskOfRequest_setTaskOf (f : LCFileNetTask → LCFileNetTask) :
  (s.setTaskOf q f).taskOfRequest q =
    { f (s.taskOfRequest q) with taskId := (s.taskOfRequest q).taskId }
  := Heap.cell_modify_self (s.requests.cell q).task (fun t => { f t with taskId := t.taskId })
      s.tasks

/-- Setting the properties of a task to what they are changes nothing. -/
theorem setTaskOf_eq_self {f : LCFileNetTask → LCFileNetTask}
    (h : { f (s.taskOfRequest q) with taskId := (s.taskOfRequest q).taskId } =
      s.taskOfRequest q) :
  s.setTaskOf q f = s
  := by
  apply System.mapState_eq_self
  have htasks : s.tasks.modify (s.requests.cell q).task
      (fun t => { f t with taskId := t.taskId }) = s.tasks := Heap.modify_eq_self h
  rw [State.mapCore, Core.setTask]
  exact congrArg (fun tasks => { s.toState with tasks }) htasks

/-- The step, unless it reports a success, leaves the task as it was, and where it reports an error
it changes nothing. -/
def CopyStep.Leaves (c : CopyStep) : Prop :=
  c.reports ≠ some none →
    SameAsBefore (c.before.taskOfRequest c.request) (c.after.taskOfRequest c.request) ∧
      ∀ error, c.reports = some (some error) → c.after = c.before

/-- A step that reports an error and changes nothing is followed by the fallback. -/
theorem CopyStep.result_of_after {error : NSError} (h : c.reports = some (some error))
    (hafter : c.after = c.before) :
  c.result E = fallback E c.request c.before
  := by
  rw [CopyStep.result, h, hafter]
  rfl

/-- The first step writes nothing on the task. -/
theorem copyBegins_leaves (source : LCFileNetTaskRow) :
  (copyBegins q source s).Leaves
  := by
  have hsame : ∀ w, SameAsBefore (s.taskOfRequest q) ((s.wait w).taskOfRequest q) :=
    fun w => ⟨rfl, rfl, rfl, rfl⟩
  rintro -
  cases htype : (s.taskOfRequest q).type with
  | upload =>
      simp only [copyBegins, htype]
      exact ⟨hsame _, by simp⟩
  | download =>
      simp only [copyBegins, htype]
      split
      · exact ⟨hsame _, by simp⟩
      · simp only [implies_true, and_true]
        exact ⟨rfl, rfl, rfl, rfl⟩
  | unknown =>
      simp only [copyBegins, htype, implies_true, and_true]
      exact ⟨rfl, rfl, rfl, rfl⟩

theorem taskOfRequest_replicateObject (sourceKey key : Option String) :
  (replicateObject sourceKey key s).taskOfRequest q = s.taskOfRequest q
  := by
  cases sourceKey with
  | none => rfl
  | some sourceKey =>
      cases key with
      | none => rfl
      | some key => rfl

theorem taskOfRequest_copyItemAtPath (source : LCFileNetTaskRow) (error : Option NSError) :
  (copyItemAtPath q source error s).taskOfRequest q = s.taskOfRequest q
  := by
  unfold copyItemAtPath
  split
  · rfl
  · rfl
  · unfold copyItem
    split
    · rfl
    · rfl

/-- A later step that finds what it writes writes nothing. -/
theorem copyGoesOn_leaves {url : Option String} {error : Option NSError} {w : Continuation}
    (h : copyGoesOn E url error w s = some c) (hfinds : FindsWhatItWrites url error s w) :
  c.Leaves
  := by
  have hrefl : ∀ {t t' : LCFileNetTask}, t' = t → SameAsBefore t t' := by
    rintro t - rfl
    exact ⟨rfl, rfl, rfl, rfl⟩
  intro hreports
  cases w with
  | replicate q source key =>
      cases error with
      | some error =>
          obtain rfl := Option.some.inj h
          exact ⟨hrefl rfl, fun _ _ => rfl⟩
      | none =>
          obtain rfl := Option.some.inj h
          exact ⟨hrefl (taskOfRequest_replicateObject _ _), by simp⟩
  | copyURL q source =>
      obtain rfl := Option.some.inj h
      obtain ⟨error, rfl⟩ : ∃ e, error = some e := by
        apply Option.ne_none_iff_exists'.mp
        rintro rfl
        apply hreports rfl
      obtain ⟨hurl, hfinished, htotal⟩ := hfinds rfl
      have hself := setTaskOf_eq_self (q := q) (s := s) (f := fun task => { task with
        url
        finishedSize := source.finishedSize
        totalSize := source.totalSize }) (by simp only [← hurl, ← hfinished, ← htotal])
      exact ⟨hrefl (congrArg (System.taskOfRequest q) hself), fun _ _ => hself⟩
  | copyItem q source =>
      obtain rfl := Option.some.inj h
      exact ⟨hrefl (taskOfRequest_copyItemAtPath source error), by simp⟩
  | copied q source copyError =>
      obtain rfl := Option.some.inj h
      obtain ⟨copyError, rfl⟩ : ∃ e, copyError = some e := by
        apply Option.ne_none_iff_exists'.mp
        rintro rfl
        apply hreports rfl
      obtain ⟨hfinished, htotal⟩ := hfinds rfl
      have hself := setTaskOf_eq_self (q := q) (s := s) (f := fun task => { task with
        finishedSize := source.finishedSize
        totalSize := source.totalSize }) (by simp only [← hfinished, ← htotal])
      exact ⟨hrefl (congrArg (System.taskOfRequest q) hself), fun _ _ => hself⟩
  | start q kind key path => cases h
  | started q r => cases h
  | url q => cases h

/-- A later step that reports an error and leaves the task as it was found what it wrote. -/
theorem findsWhatItWrites_of_same {url : Option String} {error : Option NSError}
    {w : Continuation}
    (h : ∀ c, copyGoesOn E url error w s = some c → c.reports ≠ some none →
      SameAsBefore (c.before.taskOfRequest c.request) (c.after.taskOfRequest c.request)) :
  FindsWhatItWrites url error s w
  := by
  cases w with
  | copyURL q source =>
      intro herror
      have hsame := h _ rfl (by rintro ⟨⟩; cases herror)
      dsimp only at hsame
      rw [taskOfRequest_setTaskOf] at hsame
      exact ⟨hsame.url.symm, hsame.finishedSize.symm, hsame.totalSize.symm⟩
  | copied q source copyError =>
      intro herror
      have hsame := h _ rfl (by rintro ⟨⟩; cases herror)
      dsimp only at hsame
      rw [if_pos herror, taskOfRequest_setTaskOf] at hsame
      exact ⟨hsame.finishedSize.symm, hsame.totalSize.symm⟩
  | replicate q source key => trivial
  | copyItem q source => trivial
  | start q kind key path => trivial
  | started q r => trivial
  | url q => trivial

/-- The step of a copy made during an event leaves no trace exactly if it does not fail after it
wrote something else than it found. -/
theorem leavesNoTrace_iff (e : HanderEvent) :
  LeavesNoTrace E s e ↔ FailsWithoutWriting s e
  := by
  have hleaves : (∀ c, copyStep E s e = some c → c.Leaves) → LeavesNoTrace E s e := by
    intro h c hc hreports
    obtain ⟨hsame, hafter⟩ := h c hc hreports
    refine ⟨hsame, ?_⟩
    intro error herror
    rw [step_eq_result hc, CopyStep.result_of_after herror (hafter error herror)]
  constructor
  · intro h
    cases e with
    | goOn i url error =>
        intro w hw
        by_cases hmay : mayGoOn error s w
        · have hfinds : FindsWhatItWrites url error (s.dropWaiting i) w := by
            apply findsWhatItWrites_of_same (E := E)
            intro c hc hreports
            refine (h c ?_ hreports).1
            rw [copyStep, hw, Option.bind_some, if_pos hmay, hc]
          apply hfinds
        · cases w with
          | copyURL q source => apply absurd rfl hmay
          | copied q source copyError => apply absurd rfl hmay
          | replicate q source key => trivial
          | copyItem q source => trivial
          | start q kind key path => trivial
          | started q r => trivial
          | url q => trivial
    | _ => trivial
  · intro hfails
    apply hleaves
    intro c hc
    obtain ⟨r, source, -, -, rfl⟩ | ⟨i, url, error, w, rfl, hw, -, hc⟩ := copyStep_cases hc
    · apply copyBegins_leaves
    · apply copyGoesOn_leaves hc (hfails w hw)

end

end LCS3Hander

/-! ### Whole runs -/

/-- In a run every copy that fails leaves no trace, and falls back as if there had been nothing to
copy, exactly if no copy fails after it wrote something else than it found. -/
theorem along_leavesNoTrace_iff (E : Env) (s : System) (es : List HanderEvent) :
  Run.Along (System.step E) (LeavesNoTrace E) s es ↔
    Run.Along (System.step E) FailsWithoutWriting s es
  := Run.along_congr (fun _ => leavesNoTrace_iff) s es

/-- The system when the process starts, with a finished upload of 20 MB and another file with the
same MD5. -/
def uploadedBefore : System :=
  System.initial
    ((Table.empty _).insertOrReplace
      ⟨{ fileKey := "k", md5 := "m", type := .upload, status := .finish,
         totalSize := 20000000, finishedSize := 20000000 }, "a"⟩)
    (fun path => if path = "/b" then some [1] else none) Heap.empty
    (fun key => if key = "k" then some [1] else none)

/-- The object is copied for the other file, and then there is no URL. -/
def copiedWithoutURL : List HanderEvent :=
  [.service (.addHander 0),
    .service (.create { taskId := "b", fileKey := "l", filePath := "/b", md5 := "m",
                        type := .upload }),
    .service (.startTask 0), .service (.opStart 0), .call 0, .goOn 0 none none]

/-- A copy that fails for want of a URL leaves the sizes of the finished task, and the fallback
chooses an upload in parts by them. -/
theorem not_along_leavesNoTrace_copiedWithoutURL :
  ¬ Run.Along (System.step (quiet fun _ => "m")) (LeavesNoTrace (quiet fun _ => "m"))
      uploadedBefore (copiedWithoutURL ++ [.goOn 0 none (some {})]) ∧
    (Run.final (System.step (quiet fun _ => "m")) uploadedBefore
      (copiedWithoutURL ++ [.goOn 0 none (some {})])).waiting
        = [.start 0 .multiPartUpload "l" "/b"]
  := by
  constructor
  · intro h
    obtain ⟨-, hlast, -⟩ := (Run.along_append _ _ _).mp h
    have hcopy : (copyStep (quiet fun _ => "m")
        (Run.final (System.step (quiet fun _ => "m")) uploadedBefore copiedWithoutURL)
        (.goOn 0 none (some {}))).any (fun c =>
          c.reports = some (some {}) ∧ (c.before.taskOfRequest c.request).totalSize = 0 ∧
            (c.after.taskOfRequest c.request).totalSize = 20000000) = true := by
      decide +kernel
    obtain ⟨c, hc, hreports⟩ := Option.any_eq_true _ _ |>.mp hcopy
    obtain ⟨herror, hbefore, hafter⟩ := of_decide_eq_true hreports
    have hsame := (hlast c hc (by rw [herror]; rintro ⟨⟩)).1
    have htotal := hsame.totalSize
    rw [hbefore, hafter] at htotal
    cases htotal
  · decide +kernel

end LCCFileService
