import LCCFileService.AWSS3.Genuine

/-!
# Serving genuinely

What the methods of the handler, its completion handlers and its continuations do keeps the
system faithful, and reports genuine successes only, if the bytes that are copied or left in
place are the right ones.
-/

namespace LCCFileService

open LCS3Hander

/-! ### What is told -/

/-- The successes told and the answers given from `s` to `s'` about tasks of the type are
genuine. -/
structure Told (T : LCFileNetTaskType) (s s' : System) : Prop where
  notes : ∃ ns, s'.notes = s.notes ++ ns ∧ ∀ n ∈ ns, n.success →
    (s'.tasks.cell n.task).type = T → Genuine (s'.tasks.cell n.task) s'
  answers : ∃ as, s'.answers = s.answers ++ as ∧ ∀ a ∈ as, a.2 = none →
    Concerns T a.1 s' → Genuine (s'.taskOfRequest a.1) s'

/-- From `s` to `s'` no success is told and no answer given. -/
structure Mute (s s' : System) : Prop where
  notes : ∃ ns, s'.notes = s.notes ++ ns ∧ ∀ n ∈ ns, ¬ n.success
  answers : s'.answers = s.answers

/-- The system stays faithful, and what is told is genuine. -/
structure Serves (T : LCFileNetTaskType) (md5 : Bytes → String) (s s' : System) : Prop where
  faithful : Faithful T md5 s'
  told : Told T s s'

section

variable {T : LCFileNetTaskType} {md5 : Bytes → String} {s s' s'' : System}

theorem Mute.of_eq (hnotes : s'.notes = s.notes) (hanswers : s'.answers = s.answers) :
  Mute s s'
  := ⟨⟨[], by simp [hnotes]⟩, hanswers⟩

theorem Mute.told (h : Mute s s') :
  Told T s s'
  := by
  obtain ⟨⟨ns, hns, hsuccess⟩, hanswers⟩ := h
  constructor
  · refine ⟨ns, hns, ?_⟩
    intro n hn hn'
    apply absurd hn' (hsuccess n hn)
  · exact ⟨[], by simp [hanswers]⟩

theorem Mute.trans (h : Mute s s') (h' : Mute s' s'') :
  Mute s s''
  := by
  obtain ⟨⟨ns, hns, hsuccess⟩, hanswers⟩ := h
  obtain ⟨⟨ns', hns', hsuccess'⟩, hanswers'⟩ := h'
  refine ⟨⟨ns ++ ns', ?_, ?_⟩, hanswers'.trans hanswers⟩
  · rw [hns', hns, List.append_assoc]
  · intro n hn
    rcases List.mem_append.mp hn with hn | hn
    · apply hsuccess n hn
    · apply hsuccess' n hn

/-- Something is done before in silence. -/
theorem Serves.after (h : Mute s s') (h' : Serves T md5 s' s'') :
  Serves T md5 s s''
  := by
  obtain ⟨⟨ns, hns, hsuccess⟩, hanswers⟩ := h
  obtain ⟨hfaithful, ⟨ns', hns', hsuccess'⟩, as, has, hgenuine⟩ := h'
  refine ⟨hfaithful, ⟨ns ++ ns', ?_, ?_⟩, as, ?_, hgenuine⟩
  · rw [hns', hns, List.append_assoc]
  · intro n hn hn'
    rcases List.mem_append.mp hn with hn | hn
    · apply absurd hn' (hsuccess n hn)
    · apply hsuccess' n hn hn'
  · rw [has, hanswers]

/-- Something is done afterwards that changes only transfers, `taskDic` and the messages sent. -/
theorem Serves.before (h : Serves T md5 s s') (hfaithful : Faithful T md5 s'')
    (htasks : s''.tasks = s'.tasks) (hdisk : s''.disk = s'.disk) (hnotes : s''.notes = s'.notes)
    (hbucket : s''.bucket = s'.bucket) (hrequests : s''.requests = s'.requests)
    (hanswers : s''.answers = s'.answers) :
  Serves T md5 s s''
  := by
  obtain ⟨-, ⟨ns, hns, hsuccess⟩, as, has, hgenuine⟩ := h
  refine ⟨hfaithful, ⟨ns, hnotes.trans hns, ?_⟩, as, hanswers.trans has, ?_⟩
  · rw [htasks]
    unfold Genuine
    rw [hdisk, hbucket]
    apply hsuccess
  · unfold Concerns Genuine System.taskOfRequest
    rw [htasks, hrequests, hdisk, hbucket]
    apply hgenuine

/-- Nothing is told. -/
theorem Serves.of_faithful (h : Faithful T md5 s') (hnotes : s'.notes = s.notes)
    (hanswers : s'.answers = s.answers) :
  Serves T md5 s s'
  := ⟨h, (Mute.of_eq hnotes hanswers).told⟩

end

namespace Serves

variable {T : LCFileNetTaskType} {md5 : Bytes → String} {s : System} {q : RequestRef}

/-- A request is answered, without error only if its success is genuine. -/
theorem finishCallback (h : Faithful T md5 s) (hq : Made q s) {error : Option NSError}
    (hgenuine : error = none → Concerns T q s → Genuine (s.taskOfRequest q) s) :
  Serves T md5 s (LCS3Hander.finishCallback (quiet md5) q error s)
  := by
  have hanswer : Faithful T md5
      (s.mapHander (fun h => { h with answers := h.answers ++ [(q, error)] })) :=
    h.hander rfl rfl rfl (fun _ hc => hc) (fun _ _ hhandler => hhandler) (fun _ _ hof => hof)
  simp only [LCS3Hander.finishCallback]
  cases hcall : (s.requests.cell q).call with
  | none =>
      simp only [System.toHander_mapHander, hcall]
      refine ⟨hanswer, ⟨[], by simp⟩, [(q, error)], rfl, ?_⟩
      intro a ha _ hconcerns
      obtain rfl := List.mem_singleton.mp ha
      have hsome := hconcerns.1
      simp only [System.toHander_mapHander, hcall] at hsome
      cases hsome
  | some r =>
      obtain ⟨hlt, hlinked⟩ := h.linked q hq
      obtain ⟨-, -, htask⟩ := hlinked r hcall
      have hreports : Reports (fun t => error = none ∧ t = (s.requests.cell q).task) s.toState
          (LCCFileService.step (quiet md5) s.toState (.finish r error)) := by
        apply Reports.step h.wellFormed
        · rintro ⟨⟩
        · rintro task t ⟨⟩
        · rintro path content ⟨⟩
        · rintro task ⟨⟩
        · rintro r' error' ⟨⟩
          cases error with
          | none => apply Or.inl ⟨rfl, htask⟩
          | some error => apply Or.inr rfl
      have hmoved : error = none → Concerns T q s →
          Genuine ((LCCFileService.step (quiet md5) s.toState (.finish r error)).tasks.cell
            (s.requests.cell q).task)
          ((s.mapHander (fun h => { h with answers := h.answers ++ [(q, error)] })).mapState
            (fun s => LCCFileService.step (quiet md5) s (.finish r error))) := by
        intro herror hconcerns
        apply (hgenuine herror hconcerns).congr
        · apply hreports.place _ hlt
        · intro path content _ hdisk
          apply (congrFun hreports.disk path).trans hdisk
        · exact fun _ _ _ hobject => hobject
      have hplace := hreports.place _ hlt
      obtain ⟨ns, hns, hsuccess⟩ := hreports.notes
      simp only [System.toHander_mapHander, hcall]
      refine ⟨hanswer.service (by rintro ⟨⟩) hreports, ⟨ns, hns, ?_⟩, [(q, error)], rfl, ?_⟩
      · intro n hn hn' htype
        obtain ⟨herror, hn''⟩ := hsuccess n hn hn'
        rw [hn''] at htype ⊢
        apply hmoved herror
        refine ⟨Option.isSome_of_eq_some hcall, ?_⟩
        apply (congrArg Prod.fst hplace).symm.trans htype
      · intro a ha herror hconcerns
        obtain rfl := List.mem_singleton.mp ha
        apply hmoved herror
        exact ⟨hconcerns.1, (congrArg Prod.fst hplace).symm.trans hconcerns.2⟩

/-- Properties of the task are set that its transfer is not about, and the request is answered. -/
theorem finishCallback_setTaskOf (h : Faithful T md5 s) (hq : Made q s)
    {f : LCFileNetTask → LCFileNetTask}
    (hf : (f (s.taskOfRequest q)).place = (s.taskOfRequest q).place) {error : Option NSError}
    (hgenuine : error = none → Concerns T q s → Genuine (s.taskOfRequest q) s) :
  Serves T md5 s (LCS3Hander.finishCallback (quiet md5) q error (s.setTaskOf q f))
  := by
  have hsame : SameRequest q s (s.setTaskOf q f) := SameRequest.setTaskOf hf
  have hmute : Mute s (s.setTaskOf q f) := Mute.of_eq rfl rfl
  apply Serves.after hmute
  apply finishCallback (h.setTaskOf q hf) hq
  intro herror hconcerns
  apply genuine_setTaskOf (hgenuine herror (hsame.concerns.mp hconcerns)) hf

/-- Something comes to wait for a request that keeps its promise. -/
theorem wait (h : Faithful T md5 s) {c : Continuation} (hmade : Made c.request s)
    (hc : Concerns T c.request s → c.Promises md5 s) :
  Serves T md5 s (s.wait c)
  := of_faithful (h.wait hmade hc) rfl rfl

/-- The progress of a task is told, which is no success. -/
theorem progressCallback (h : Faithful T md5 s) (hq : Made q s) :
  Faithful T md5 (LCS3Hander.progressCallback (quiet md5) q s) ∧
    Mute s (LCS3Hander.progressCallback (quiet md5) q s) ∧
    SameRequest q s (LCS3Hander.progressCallback (quiet md5) q s) ∧
    (LCS3Hander.progressCallback (quiet md5) q s).disk = s.disk ∧
    (LCS3Hander.progressCallback (quiet md5) q s).toHander = s.toHander
  := by
  rw [LCS3Hander.progressCallback]
  cases hcall : (s.requests.cell q).call with
  | none => exact ⟨h, Mute.of_eq rfl rfl, ⟨rfl, rfl⟩, rfl, rfl⟩
  | some r =>
      have hreports : Reports (fun _ => False) s.toState
          (LCCFileService.step (quiet md5) s.toState (.progress r)) := by
        apply Reports.step h.wellFormed
        · rintro ⟨⟩
        · rintro task t ⟨⟩
        · rintro path content ⟨⟩
        · rintro task ⟨⟩
        · rintro r' error' ⟨⟩
      obtain ⟨ns, hns, hsuccess⟩ := hreports.notes
      refine ⟨h.service (by rintro ⟨⟩) hreports, ⟨⟨ns, hns, ?_⟩, rfl⟩, ⟨rfl, ?_⟩,
        hreports.disk, rfl⟩
      · intro n hn hn'
        apply hsuccess n hn hn'
      · apply hreports.place _ (h.linked q hq).1

/-- The start of an upload is to be waited for, or an upload cannot be started. -/
theorem pStartUpload (h : Faithful T md5 s) (hq : Made q s)
    (htype : Concerns T q s → (s.taskOfRequest q).type = .upload) :
  Serves T md5 s (LCS3Hander.pStartUpload (quiet md5) q s)
  := by
  rw [LCS3Hander.pStartUpload]
  split
  · next fileKey filePath hkey hpath =>
      split
      · apply wait (c := .start q _ fileKey filePath) h hq
        intro hconcerns
        refine ⟨?_, hkey, hpath⟩
        rw [htype hconcerns]
        split
        · rfl
        · rfl
      · apply finishCallback h hq
        rintro ⟨⟩
  · apply finishCallback h hq
    rintro ⟨⟩

/-- The start of a download is to be waited for, or a download cannot be started. -/
theorem pStartDownload (h : Faithful T md5 s) (hq : Made q s)
    (htype : Concerns T q s → (s.taskOfRequest q).type = .download) :
  Serves T md5 s (LCS3Hander.pStartDownload (quiet md5) q s)
  := by
  rw [LCS3Hander.pStartDownload]
  split
  · next fileKey filePath hkey hpath =>
      apply wait (c := .start q .download fileKey filePath) h hq
      intro hconcerns
      exact ⟨(htype hconcerns).symm, hkey, hpath⟩
  · apply finishCallback h hq
    rintro ⟨⟩

/-- A copy has come to an end: without error, and genuinely, or a transfer is started. -/
theorem copyCallback (h : Faithful T md5 s) (hq : Made q s) {error : Option NSError}
    (hcopies : Concerns T q s → Copies .upload q s ∨ Copies .download q s)
    (hgenuine : error = none → Concerns T q s → Genuine (s.taskOfRequest q) s) :
  Serves T md5 s (LCS3Hander.copyCallback (quiet md5) q error s)
  := by
  rw [LCS3Hander.copyCallback]
  split
  · split
    · next hmethod =>
        apply pStartUpload h hq
        intro hconcerns
        rcases hcopies hconcerns with ⟨-, htype⟩ | ⟨hmethod', -⟩
        · apply htype
        · rw [hmethod] at hmethod'
          cases hmethod'
    · next hmethod =>
        apply pStartDownload h hq
        intro hconcerns
        rcases hcopies hconcerns with ⟨hmethod', -⟩ | ⟨-, htype⟩
        · apply absurd hmethod' hmethod
        · apply htype
  · next hnone =>
      obtain ⟨hfaithful, hmute, hsame, hdisk, hhander⟩ := progressCallback h hq
      apply Serves.after hmute
      apply finishCallback hfaithful
      · rw [Made, hhander]
        apply hq
      · intro _ hconcerns
        rw [Option.not_isSome_iff_eq_none] at hnone
        apply (hgenuine hnone (hsame.concerns.mp hconcerns)).congr hsame.place
        · rw [hdisk]
          exact fun _ _ _ hdisk => hdisk
        · rw [hhander]
          exact fun _ _ _ hobject => hobject

/-- Properties of the task are set that its transfer is not about, and a copy comes to an end. -/
theorem copyCallback_setTaskOf (h : Faithful T md5 s) (hq : Made q s)
    {f : LCFileNetTask → LCFileNetTask}
    (hf : (f (s.taskOfRequest q)).place = (s.taskOfRequest q).place) {error : Option NSError}
    (hcopies : Concerns T q s → Copies .upload q s ∨ Copies .download q s)
    (hgenuine : error = none → Concerns T q s → Genuine (s.taskOfRequest q) s) :
  Serves T md5 s (LCS3Hander.copyCallback (quiet md5) q error (s.setTaskOf q f))
  := by
  have hsame : SameRequest q s (s.setTaskOf q f) := SameRequest.setTaskOf hf
  have hmute : Mute s (s.setTaskOf q f) := Mute.of_eq rfl rfl
  apply Serves.after hmute
  apply copyCallback (h.setTaskOf q hf) hq
  · intro hconcerns
    rw [hsame.copies, hsame.copies]
    apply hcopies (hsame.concerns.mp hconcerns)
  · intro herror hconcerns
    apply genuine_setTaskOf (hgenuine herror (hsame.concerns.mp hconcerns)) hf

/-- A copy from a finished task is to be waited for, or a transfer is started. -/
theorem pCopyTask (h : Faithful T md5 s) (hq : Made q s) {source : LCFileNetTaskRow}
    (hcopies : Concerns T q s → Copies .upload q s ∨ Copies .download q s)
    (hmd5 : Concerns T q s → (s.taskOfRequest q).type = .upload →
      ∃ content, (s.taskOfRequest q).filePath.bind s.disk = some content ∧
        source.md5 = some (md5 content)) :
  Serves T md5 s (LCS3Hander.pCopyTask (quiet md5) q source s)
  := by
  simp only [LCS3Hander.pCopyTask]
  split
  · next htype =>
      apply wait (c := .replicate q source _) h hq
      intro hconcerns
      refine ⟨?_, rfl, hmd5 hconcerns htype⟩
      rcases hcopies hconcerns with hcopies | ⟨-, htype'⟩
      · apply hcopies
      · rw [htype] at htype'
        cases htype'
  · next htype =>
      split
      · apply wait (c := .copyItem q source) h hq
        intro hconcerns
        rcases hcopies hconcerns with ⟨-, htype'⟩ | hcopies
        · rw [htype] at htype'
          cases htype'
        · apply hcopies
      · apply copyCallback h hq hcopies
        rintro ⟨⟩
  · apply copyCallback h hq hcopies
    rintro ⟨⟩

theorem lcFileNetHanderUpload (h : Faithful T md5 s) (hq : Made q s)
    (hcopies : Concerns T q s → Copies .upload q s)
    (hmd5 : Concerns T q s →
      ∃ content, (s.taskOfRequest q).filePath.bind s.disk = some content ∧
        (s.taskOfRequest q).md5 = some (md5 content)) :
  Serves T md5 s (LCS3Hander.lcFileNetHanderUpload (quiet md5) q s)
  := by
  rw [LCS3Hander.lcFileNetHanderUpload]
  split
  · next oldTask hfound =>
      have hsource : oldTask.md5 = (s.taskOfRequest q).md5 := by
        have hmem := List.mem_of_find?_eq_some hfound
        rw [LCFileTaskDB.lcGetTaskByMd5, List.mem_filter, decide_eq_true_eq] at hmem
        apply hmem.2.2
      apply pCopyTask h hq
      · intro hconcerns
        apply Or.inl (hcopies hconcerns)
      · intro hconcerns _
        obtain ⟨content, hfile, heq⟩ := hmd5 hconcerns
        exact ⟨content, hfile, hsource.trans heq⟩
  · apply pStartUpload h hq
    intro hconcerns
    apply (hcopies hconcerns).2

theorem lcFileNetHanderDownload (h : Faithful T md5 s) (hq : Made q s)
    (hcopies : Concerns T q s → Copies .download q s) :
  Serves T md5 s (LCS3Hander.lcFileNetHanderDownload (quiet md5) q s)
  := by
  rw [LCS3Hander.lcFileNetHanderDownload]
  split
  · apply pCopyTask h hq
    · intro hconcerns
      apply Or.inr (hcopies hconcerns)
    · intro hconcerns htype
      rw [(hcopies hconcerns).2] at htype
      cases htype
  · apply pStartDownload h hq
    intro hconcerns
    apply (hcopies hconcerns).2

/-! ### The end of a transfer -/

theorem answerCompletion (h : Faithful T md5 s) (hq : Made q s) (kind : TransferKind)
    {error : Option NSError}
    (hgenuine : error = none → Concerns T q s → Genuine (s.taskOfRequest q) s) :
  Serves T md5 s (LCS3Hander.answerCompletion (quiet md5) kind q error s)
  := by
  rw [LCS3Hander.answerCompletion]
  split
  · apply finishCallback h hq hgenuine
  · next hnone =>
      rw [Option.not_isSome_iff_eq_none] at hnone
      split
      · apply finishCallback_setTaskOf h hq rfl
        intro _
        apply hgenuine hnone
      · apply wait (c := .url q) h hq
        apply hgenuine hnone

/-- Entries of `taskDic` do not matter. -/
theorem removeObject {s' : System} (h : Serves T md5 s s') (q : RequestRef) :
  Serves T md5 s (LCS3Hander.removeObject q s')
  := by
  rw [LCS3Hander.removeObject]
  split
  · refine h.before ?_ rfl rfl rfl rfl rfl rfl
    exact h.faithful.hander rfl rfl rfl (fun _ hc => hc) (fun _ _ hhandler => hhandler)
      (fun _ _ hof => hof)
  · refine h.before ?_ rfl rfl rfl rfl rfl rfl
    apply h.faithful.mapState h.faithful.wellFormed h.faithful.calls
      (Steady.refl s'.toCore).toAdvance (fun _ _ => rfl) (fun _ _ _ _ _ hdisk => hdisk)

/-- The completion handler of a transfer runs: of one that has ended without error only if its
success is genuine. -/
theorem complete (h : Faithful T md5 s) (r : TransferRef)
    (hgenuine : ∀ handler ∈ (s.transfers.cell r).completionHandler,
      (s.transfers.cell r).error = none → Concerns T handler.request s →
        Genuine (s.taskOfRequest handler.request) s) :
  Serves T md5 s (LCS3Hander.complete (quiet md5) r s)
  := by
  simp only [LCS3Hander.complete]
  split
  · next handler hhandler =>
      have hanswer := answerCompletion h (h.held r handler hhandler) (s.transfers.cell r).kind
        (hgenuine handler hhandler)
      have hrun : Serves T md5 s (runCompletionHandler (quiet md5) (s.transfers.cell r).kind
          handler (s.transfers.cell r).error s) := by
        rw [runCompletionHandler]
        split
        · apply hanswer.removeObject
        · apply hanswer
      refine hrun.before ?_ rfl rfl rfl rfl rfl rfl
      apply hrun.faithful.setTransfer
      · rintro t handler ⟨⟩
      · exact fun _ _ hof => hof
  · apply of_faithful h rfl rfl

/-- The completion handler of a request is installed in a transfer of its task. -/
theorem install (h : Faithful T md5 s) (hq : Made q s) {r : TransferRef}
    (hof : Concerns T q s → (s.transfers.cell r).IsOf (s.taskOfRequest q)) (removes : Bool) :
  Faithful T md5 (s.send r .setCompletionHandler
    (fun t => { t with completionHandler := some ⟨q, removes⟩ }))
  := by
  have hcell := System.cell_send r .setCompletionHandler
    (fun t => { t with completionHandler := some ⟨q, removes⟩ }) s
  constructor
  · apply h.wellFormed
  · apply h.calls
  · apply h.linked
  · apply h.waits
  · intro c hc hconcerns
    apply (h.promises c hc hconcerns).hander rfl rfl rfl
  · intro r' handler hhandler
    rw [hcell] at hhandler
    split at hhandler
    · cases hhandler
      apply hq
    · apply h.held r' handler hhandler
  · intro r' handler hhandler hconcerns
    rw [hcell] at hhandler ⊢
    split at hhandler
    · next hr =>
        cases hhandler
        rw [if_pos hr]
        apply hof hconcerns
    · next hr =>
        rw [if_neg hr]
        apply h.carries r' handler hhandler hconcerns

theorem setCompletionHandler (h : Faithful T md5 s) (hq : Made q s) {r : TransferRef}
    (hof : Concerns T q s → (s.transfers.cell r).IsOf (s.taskOfRequest q))
    (hgenuine : (s.transfers.cell r).ended → (s.transfers.cell r).error = none →
      Concerns T q s → Genuine (s.taskOfRequest q) s) :
  Serves T md5 s (LCS3Hander.setCompletionHandler (quiet md5) r ⟨q, false⟩ s)
  := by
  have hinstall := install h hq hof false
  have hcell : (s.send r .setCompletionHandler
        (fun t => { t with completionHandler := some ⟨q, false⟩ })).transfers.cell r
      = { s.transfers.cell r with completionHandler := some ⟨q, false⟩ } := by
    rw [System.cell_send, if_pos rfl]
  have hmute : Mute s (s.send r .setCompletionHandler
      (fun t => { t with completionHandler := some ⟨q, false⟩ })) := Mute.of_eq rfl rfl
  rw [LCS3Hander.setCompletionHandler]
  split
  · next hended =>
      apply Serves.after hmute
      apply complete hinstall
      rw [hcell] at hended ⊢
      rintro handler ⟨⟩
      apply hgenuine hended
  · exact of_faithful hinstall rfl rfl

/-- A transfer is resumed for a request, if there is one of its task. -/
theorem resumTask (h : Faithful T md5 s) (hq : Made q s) {takes : TransferKind → Bool}
    (hentry : ∀ r ∈ awsTask q s, takes (s.transfers.cell r).kind → Concerns T q s →
      (s.transfers.cell r).IsOf (s.taskOfRequest q) ∧
        ((s.transfers.cell r).ended → (s.transfers.cell r).error = none →
          Genuine (s.taskOfRequest q) s)) :
  Serves T md5 s (LCS3Hander.resumTask (quiet md5) takes q s)
  := by
  rw [LCS3Hander.resumTask]
  split
  · next r hr =>
      split
      · next htakes =>
          have hset := setCompletionHandler h hq
            (fun hconcerns => (hentry r hr htakes hconcerns).1)
            (fun hended herror hconcerns => (hentry r hr htakes hconcerns).2 hended herror)
          apply hset.before (hset.faithful.resume r) rfl rfl rfl rfl rfl rfl
      · apply of_faithful h rfl rfl
  · apply finishCallback h hq
    rintro ⟨⟩

end Serves

/-! ### Requests -/

/-- The method of the request is for the direction of its task. -/
def RightDirection (r : Request) (s : System) : Prop :=
  r.method.transfers → r.method.type = (s.tasks.cell r.task).type

instance (r : Request) (s : System) : Decidable (RightDirection r s) :=
  inferInstanceAs (Decidable (_ → _))

/-- The MD5 of the task of an upload is that of its file. -/
def RightMd5 (md5 : Bytes → String) (r : Request) (s : System) : Prop :=
  r.method = .upload → ∃ content, (s.tasks.cell r.task).filePath.bind s.disk = some content ∧
    (s.tasks.cell r.task).md5 = some (md5 content)

instance (md5 : Bytes → String) (r : Request) (s : System) : Decidable (RightMd5 md5 r s) :=
  inferInstanceAs (Decidable (_ → ∃ content ∈ (s.tasks.cell r.task).filePath.bind s.disk, _))

/-- A resumption finds a transfer of the object and the file of the task; and if it has ended
without error, the file is the object. -/
def FindsItsOwn (r : Request) (s : System) : Prop :=
  r.method.resumes → ∀ transfer ∈ entry r s, r.method.takes (s.transfers.cell transfer).kind →
    (s.transfers.cell transfer).IsOf (s.tasks.cell r.task) ∧
      ((s.transfers.cell transfer).ended → (s.transfers.cell transfer).error = none →
        Genuine (s.tasks.cell r.task) s)

instance (r : Request) (s : System) : Decidable (FindsItsOwn r s) :=
  inferInstanceAs (Decidable (_ → ∀ transfer ∈ entry r s, _ → _ ∧ (_ → _ → _)))

section

variable {T : LCFileNetTaskType} {md5 : Bytes → String} {s : System}

/-- A request is entered. -/
theorem Faithful.addRequest (h : Faithful T md5 s) {r : Request}
    (hlinked : r.method.transfers → r.task < s.tasks.next ∧ ∀ c, r.call = some c →
      c < s.calls.next ∧ (s.calls.cell c).method.transfers ∧
        s.taskOf (s.calls.cell c).op = r.task) :
  Faithful T md5 (s.addRequest r)
  := by
  have hcell : ∀ q, q < s.requests.next →
      (s.addRequest r).requests.cell q = s.requests.cell q := by
    intro q hq
    apply Heap.cell_alloc_of_lt r hq
  have hsame : ∀ q, q < s.requests.next → SameRequest q s (s.addRequest r) := by
    intro q hq
    refine ⟨hcell q hq, ?_⟩
    rw [System.taskOfRequest, hcell q hq]
    rfl
  constructor
  · apply h.wellFormed
  · apply h.calls
  · rintro q ⟨hlt, hmethod⟩
    by_cases hq : q < s.requests.next
    · rw [hcell q hq] at hmethod
      rw [Linked, hcell q hq]
      apply h.linked q ⟨hq, hmethod⟩
    · obtain rfl : q = s.requests.next :=
        Nat.le_antisymm (Nat.lt_succ_iff.mp hlt) (Nat.le_of_not_lt hq)
      have hnew : (s.addRequest r).requests.cell s.requests.next = r :=
        Heap.cell_alloc_next r s.requests
      rw [hnew] at hmethod
      rw [Linked, hnew]
      apply hlinked hmethod
  · intro c hc
    apply (h.waits c hc).addRequest
  · intro c hc hconcerns
    have hsame' := hsame c.request (h.waits c hc).1
    apply (h.promises c hc (hsame'.concerns.mp hconcerns)).congr hsame'
      (fun _ _ _ hdisk => hdisk) (fun _ _ _ _ hobject => hobject)
  · intro r' handler hhandler
    apply (h.held r' handler hhandler).addRequest
  · intro r' handler hhandler hconcerns
    have hsame' := hsame handler.request (h.held r' handler hhandler).1
    apply (h.carries r' handler hhandler (hsame'.concerns.mp hconcerns)).congr hsame'

theorem Serves.request (h : Faithful T md5 s) {r : Request}
    (hlinked : r.method.transfers → r.task < s.tasks.next ∧ ∀ c, r.call = some c →
      c < s.calls.next ∧ (s.calls.cell c).method.transfers ∧
        s.taskOf (s.calls.cell c).op = r.task)
    (hright : r.call.isSome → (s.tasks.cell r.task).type = T →
      RightDirection r s ∧ RightMd5 md5 r s ∧ FindsItsOwn r s) :
  Serves T md5 s (LCS3Hander.request (quiet md5) r s)
  := by
  have hadd := h.addRequest hlinked
  have hcell : (s.addRequest r).requests.cell s.requests.next = r :=
    Heap.cell_alloc_next r s.requests
  have htask : (s.addRequest r).taskOfRequest s.requests.next = s.tasks.cell r.task := by
    rw [System.taskOfRequest, hcell]
    rfl
  have hentry : awsTask s.requests.next (s.addRequest r) = entry r s := by
    rw [awsTask, htask]
    rfl
  have hconcerns : Concerns T s.requests.next (s.addRequest r) →
      RightDirection r s ∧ RightMd5 md5 r s ∧ FindsItsOwn r s := by
    rintro ⟨hcall, htype⟩
    rw [hcell] at hcall
    rw [htask] at htype
    apply hright hcall htype
  have hmade : r.method.transfers → Made s.requests.next (s.addRequest r) := by
    intro hmethod
    refine ⟨Nat.lt_succ_self _, ?_⟩
    rw [hcell]
    apply hmethod
  have hmute : Mute s (s.addRequest r) := Mute.of_eq rfl rfl
  have hresum : ∀ takes : TransferKind → Bool, r.method.transfers → r.method.resumes →
      (∀ kind, takes kind → r.method.takes kind) →
        Serves T md5 (s.addRequest r)
          (LCS3Hander.resumTask (quiet md5) takes s.requests.next (s.addRequest r)) := by
    intro takes htransfers hresumes htakes
    apply Serves.resumTask hadd (hmade htransfers)
    intro transfer hfound hkind hq
    rw [hentry] at hfound
    rw [htask]
    obtain ⟨hof, hended⟩ := (hconcerns hq).2.2 hresumes transfer hfound (htakes _ hkind)
    exact ⟨hof, hended⟩
  apply Serves.after hmute
  rw [LCS3Hander.request, callMethod, hcell]
  cases hmethod : r.method with
  | upload =>
      rw [hmethod] at hmade
      apply Serves.lcFileNetHanderUpload hadd (hmade rfl)
      · intro hq
        rw [Copies, hcell, htask]
        have hdirection := (hconcerns hq).1
        rw [RightDirection, hmethod] at hdirection
        exact ⟨hmethod, (hdirection rfl).symm⟩
      · intro hq
        rw [htask]
        apply (hconcerns hq).2.1 hmethod
  | download =>
      rw [hmethod] at hmade
      apply Serves.lcFileNetHanderDownload hadd (hmade rfl)
      intro hq
      rw [Copies, hcell, htask]
      have hdirection := (hconcerns hq).1
      rw [RightDirection, hmethod] at hdirection
      exact ⟨hmethod, (hdirection rfl).symm⟩
  | resumUpload =>
      rw [hmethod] at hresum
      apply hresum _ rfl rfl (fun _ htakes => htakes)
  | resumDownload =>
      rw [hmethod] at hresum
      apply hresum _ rfl rfl (fun _ htakes => htakes)
  | cancel =>
      simp only [lcFileNetHanderCancelTask]
      split
      · next transfer _ =>
          have hcancel := hadd.send transfer .cancel (f := AWSS3TransferUtilityTask.cancel)
            (fun _ _ hhandler => hhandler) (fun _ _ hof => hof)
          exact Serves.of_faithful hcancel rfl rfl
      · apply Serves.of_faithful hadd rfl rfl
  | pause =>
      simp only [lcFileNetHanderPauseTask]
      split
      · next transfer _ => exact Serves.of_faithful (hadd.suspend transfer) rfl rfl
      · apply Serves.of_faithful hadd rfl rfl

/-! ### Going on -/

/-- The object is copied that has the bytes of the file. -/
theorem Faithful.replicateObject (h : Faithful T md5 s) {sourceKey key : Option String}
    (hobject : ∀ c ∈ s.waiting, c.done → ∀ k content,
      (s.taskOfRequest c.request).fileKey = some k → s.bucket k = some content →
        (LCS3Hander.replicateObject sourceKey key s).bucket k = some content) :
  Faithful T md5 (LCS3Hander.replicateObject sourceKey key s)
  := by
  have hrest : ∀ s', (∃ bucket, s' = s.mapBucket (fun _ => bucket)) →
      (∀ c ∈ s.waiting, c.done → ∀ k content,
        (s.taskOfRequest c.request).fileKey = some k → s.bucket k = some content →
          s'.bucket k = some content) → Faithful T md5 s' := by
    rintro s' ⟨bucket, rfl⟩ hobject
    exact h.congr h.wellFormed h.calls (Steady.refl s.toCore).toAdvance rfl (fun _ hc => hc)
      (fun _ _ hhandler => hhandler) (fun _ _ hof => hof) (fun _ _ => rfl)
      (fun _ _ _ _ _ hdisk => hdisk) hobject
  apply hrest _ _ hobject
  unfold LCS3Hander.replicateObject
  split
  · exact ⟨_, rfl⟩
  · exact ⟨s.bucket, rfl⟩

/-- Files are written, but none that a waiting continuation is about. -/
theorem Faithful.mapDisk (h : Faithful T md5 s) {f : Disk String Bytes → Disk String Bytes}
    (hfile : ∀ c ∈ s.waiting, ∀ path content,
      (s.taskOfRequest c.request).filePath = some path → s.disk path = some content →
        f s.disk path = some content) :
  Faithful T md5 (s.mapDisk f)
  := by
  apply h.mapState
  · exact h.wellFormed.congr rfl rfl rfl rfl rfl
  · apply h.calls
  · apply Steady.toAdvance
    exact Steady.of_eq (Nat.le_refl _) (fun _ _ => rfl) rfl rfl rfl
  · exact fun _ _ => rfl
  · apply hfile

/-- A file is written where there is none. -/
theorem Faithful.update_disk (h : Faithful T md5 s) {path : String}
    (hpath : s.disk.has path = false) (content : Option Bytes) :
  Faithful T md5 (s.mapDisk (fun disk => Function.update disk path content))
  := by
  apply h.mapDisk
  intro _ _ path' content' _ hdisk
  rw [Function.update_apply, if_neg]
  · exact hdisk
  · rintro rfl
    rw [Disk.has, hdisk] at hpath
    cases hpath

/-- The object or the file that is copied has the bytes the copy is to have. -/
def Continuation.CopiesTruly (s : System) : Continuation → Prop
  | .replicate q source _ =>
      source.fileKey.bind s.bucket = (s.taskOfRequest q).filePath.bind s.disk
  | .copyItem q source =>
      source.filePath.bind s.disk = (s.taskOfRequest q).fileKey.bind s.bucket
  | _ => True

/-- S3 has copied the object with the bytes of the file. -/
theorem Serves.replicated (h : Faithful T md5 s) {q : RequestRef} (hmade : Made q s)
    {source : LCFileNetTaskRow} {key : Option String} (hkey : key.isSome)
    (hc : Concerns T q s → Continuation.Promises md5 s (.replicate q source key))
    (hcopies : Concerns T q s → Continuation.CopiesTruly s (.replicate q source key))
    (hobject : ∀ c ∈ s.waiting, c.done → ∀ k content,
      (s.taskOfRequest c.request).fileKey = some k → s.bucket k = some content →
        (LCS3Hander.replicateObject source.fileKey key s).bucket k = some content) :
  Serves T md5 s
    ((LCS3Hander.replicateObject source.fileKey key s).wait (.copyURL q source))
  := by
  have hreplicate := h.replicateObject hobject
  have hrest : (LCS3Hander.replicateObject source.fileKey key s).toState = s.toState ∧
      (LCS3Hander.replicateObject source.fileKey key s).requests = s.requests ∧
      (LCS3Hander.replicateObject source.fileKey key s).answers = s.answers := by
    unfold LCS3Hander.replicateObject
    split
    · exact ⟨rfl, rfl, rfl⟩
    · exact ⟨rfl, rfl, rfl⟩
  obtain ⟨hstate, hrequests, hanswers⟩ := hrest
  have hmute : Mute s (LCS3Hander.replicateObject source.fileKey key s) := by
    apply Mute.of_eq _ hanswers
    rw [hstate]
  have hsame : SameRequest q s (LCS3Hander.replicateObject source.fileKey key s) := by
    constructor
    · rw [hrequests]
    · rw [System.taskOfRequest, System.taskOfRequest, hstate, hrequests]
  apply Serves.after hmute
  apply Serves.wait (c := .copyURL q source) hreplicate
  · rw [Made, hrequests]
    apply hmade
  · intro hconcerns
    have hconcerns' := hsame.concerns.mp hconcerns
    obtain ⟨hcopies', hfileKey, content, hfile, -⟩ := hc hconcerns'
    obtain ⟨key, rfl⟩ := Option.isSome_iff_exists.mp hkey
    have hbytes := (hcopies hconcerns').trans hfile
    obtain ⟨sourceKey, hsourceKey, hbytes⟩ := Option.bind_eq_some_iff.mp hbytes
    refine ⟨hsame.copies.mpr hcopies', content, ?_, ?_⟩
    · have hpath : ((LCS3Hander.replicateObject source.fileKey (some key) s).taskOfRequest
          q).filePath = (s.taskOfRequest q).filePath := hsame.filePath
      rw [hpath, hstate]
      apply hfile
    · have hkey' : ((LCS3Hander.replicateObject source.fileKey (some key) s).taskOfRequest
          q).fileKey = some key := hsame.fileKey.trans hfileKey.symm
      rw [hkey', hsourceKey]
      simp only [LCS3Hander.replicateObject, System.mapBucket, System.toHander_mapHander,
        Option.bind_some, Disk.copy_apply, if_true]
      apply hbytes

/-- The file has been copied that has the bytes of the object, to where there was none. -/
theorem Serves.itemCopied (h : Faithful T md5 s) {q : RequestRef} (hmade : Made q s)
    {source : LCFileNetTaskRow} {sourcePath path : String}
    (hsourcePath : source.filePath = some sourcePath)
    (hpath : (s.taskOfRequest q).filePath = some path) (hsource : s.disk.has sourcePath)
    (htarget : s.disk.has path = false)
    (hc : Concerns T q s → Continuation.Promises md5 s (.copyItem q source))
    (hcopies : Concerns T q s → Continuation.CopiesTruly s (.copyItem q source)) :
  Serves T md5 s ((s.mapDisk (Disk.copy sourcePath path)).wait (.copied q source none))
  := by
  have hnone : s.disk path = none := by
    simpa [Disk.has] using htarget
  have hcopy : Faithful T md5 (s.mapDisk (Disk.copy sourcePath path)) := by
    apply h.mapDisk
    intro _ _ path' content _ hdisk
    rw [Disk.copy_apply]
    split
    · next heq =>
        rw [heq, hnone] at hdisk
        cases hdisk
    · apply hdisk
  have hmute : Mute s (s.mapDisk (Disk.copy sourcePath path)) := Mute.of_eq rfl rfl
  apply Serves.after hmute
  apply Serves.wait (c := .copied q source none) hcopy hmade
  intro hconcerns
  refine ⟨hc hconcerns, ?_⟩
  rintro -
  obtain ⟨content, hcontent⟩ := Disk.has_iff.mp hsource
  have hbytes := hcopies hconcerns
  rw [Continuation.CopiesTruly, hsourcePath, Option.bind_some, hcontent] at hbytes
  have hpath' : ((s.mapDisk (Disk.copy sourcePath path)).taskOfRequest q).filePath = some path :=
    hpath
  refine ⟨content, ?_, hbytes.symm⟩
  rw [hpath', Option.bind_some]
  apply (Disk.copy_apply sourcePath path s.disk path).trans ((if_pos rfl).trans hcontent)

/-- A transfer of the object and the file of the task has been started. -/
theorem Serves.transferStarted (h : Faithful T md5 s) {q : RequestRef} (hmade : Made q s)
    {kind : TransferKind} {key path : String}
    (hc : Concerns T q s → Continuation.Promises md5 s (.start q kind key path)) :
  Serves T md5 s ((s.mapHander (fun h => { h with
      transfers := h.transfers.alloc
        { kind, key, path, completionHandler := some ⟨q, true⟩ } })).wait
    (.started q s.transfers.next))
  := by
  have halloc : Faithful T md5 (s.mapHander (fun h => { h with
      transfers := h.transfers.alloc
        { kind, key, path, completionHandler := some ⟨q, true⟩ } })) := by
    have hcell := Heap.cell_alloc
      ({ kind, key, path, completionHandler := some ⟨q, true⟩ } : AWSS3TransferUtilityTask)
      s.transfers
    constructor
    · apply h.wellFormed
    · apply h.calls
    · apply h.linked
    · apply h.waits
    · intro c hwaits hconcerns
      apply (h.promises c hwaits hconcerns).hander rfl rfl rfl
    · intro r handler hhandler
      rw [System.toHander_mapHander, hcell] at hhandler
      split at hhandler
      · cases hhandler
        apply hmade
      · apply h.held r handler hhandler
    · intro r handler hhandler hconcerns
      rw [System.toHander_mapHander, hcell] at hhandler ⊢
      split at hhandler
      · next hr =>
          cases hhandler
          rw [if_pos hr]
          apply hc hconcerns
      · next hr =>
          rw [if_neg hr]
          apply h.carries r handler hhandler hconcerns
  have hmute : Mute s (s.mapHander (fun h => { h with
      transfers := h.transfers.alloc
        { kind, key, path, completionHandler := some ⟨q, true⟩ } })) := Mute.of_eq rfl rfl
  apply Serves.after hmute
  apply Serves.wait (c := .started q s.transfers.next) halloc hmade
  exact fun _ => trivial

instance (s : System) : (c : Continuation) → Decidable (c.CopiesTruly s)
  | .replicate _ _ _ | .copyItem _ _ => inferInstanceAs (Decidable (_ = _))
  | .copyURL _ _ | .copied _ _ _ | .start _ _ _ _ | .started _ _ | .url _ => isTrue trivial

/-- What was waiting goes on, and copies what has the right bytes. -/
theorem Serves.goOn (h : Faithful T md5 s) {c : Continuation} (hmade : Made c.request s)
    (hc : Concerns T c.request s → c.Promises md5 s) (url : Option String)
    {error : Option NSError} (hmay : mayGoOn error s c)
    (hcopies : error = none → Concerns T c.request s → c.CopiesTruly s)
    (hobject : ∀ c' ∈ s.waiting, c'.done → ∀ key content,
      (s.taskOfRequest c'.request).fileKey = some key → s.bucket key = some content →
        (LCS3Hander.goOn (quiet md5) url error c s).bucket key = some content) :
  Serves T md5 s (LCS3Hander.goOn (quiet md5) url error c s)
  := by
  cases c with
  | replicate q source key =>
      cases error with
      | some error =>
          apply Serves.copyCallback h hmade
          · intro hconcerns
            apply Or.inl (hc hconcerns).1
          · rintro ⟨⟩
      | none =>
          rw [mayGoOn, Option.isSome_none, Bool.false_or, Bool.and_eq_true] at hmay
          apply Serves.replicated h hmade hmay.1 hc (hcopies rfl) hobject
  | copyURL q source =>
      apply Serves.copyCallback_setTaskOf h hmade rfl
      · intro hconcerns
        apply Or.inl (hc hconcerns).1
      · intro _ hconcerns
        apply (hc hconcerns).2
  | copyItem q source =>
      rw [LCS3Hander.goOn]
      unfold copyItemAtPath
      split
      · have hthrown : Faithful T md5 (throwException s) :=
          h.hander rfl rfl rfl (fun _ hc => hc) (fun _ _ hhandler => hhandler)
            (fun _ _ hof => hof)
        exact Serves.of_faithful hthrown rfl rfl
      · next error _ =>
          apply Serves.wait (c := .copied q source (some error)) h hmade
          intro hconcerns
          refine ⟨hc hconcerns, ?_⟩
          rintro ⟨⟩
      · next path hpath =>
          rw [mayGoOn, hpath] at hmay
          dsimp only at hmay
          rw [Option.isSome_none, Bool.false_or, Bool.and_eq_true, Bool.not_eq_true'] at hmay
          obtain ⟨hsource, htarget⟩ := hmay
          cases hsourcePath : source.filePath with
          | none => simp [hsourcePath] at hsource
          | some sourcePath =>
              rw [hsourcePath] at hsource
              simp only [LCS3Hander.copyItem]
              apply Serves.itemCopied h hmade hsourcePath hpath hsource htarget hc (hcopies rfl)
  | copied q source copyError =>
      cases copyError with
      | some copyError =>
          apply Serves.copyCallback_setTaskOf h hmade rfl
          · intro hconcerns
            apply Or.inr (hc hconcerns).1
          · rintro ⟨⟩
      | none =>
          have hsame : SameRequest q s (setMd5 (quiet md5) q s) := SameRequest.setTaskOf rfl
          have hmute : Mute s (setMd5 (quiet md5) q s) := Mute.of_eq rfl rfl
          apply Serves.after hmute
          apply Serves.copyCallback_setTaskOf (h.setTaskOf q rfl) hmade rfl
          · intro hconcerns
            apply Or.inr (hsame.copies.mpr (hc (hsame.concerns.mp hconcerns)).1)
          · intro _ hconcerns
            apply genuine_setTaskOf ((hc (hsame.concerns.mp hconcerns)).2 rfl) rfl
  | start q kind key path =>
      cases error with
      | some error =>
          apply Serves.finishCallback h hmade
          rintro ⟨⟩
      | none => apply Serves.transferStarted h hmade hc
  | started q r =>
      rw [LCS3Hander.goOn, setObject]
      split
      · next taskId _ =>
          have hinsert : Faithful T md5 (s.mapHander (fun h =>
              { h with taskDic := h.taskDic.insert taskId r })) :=
            h.hander rfl rfl rfl (fun _ hc => hc) (fun _ _ hhandler => hhandler)
              (fun _ _ hof => hof)
          exact Serves.of_faithful hinsert rfl rfl
      · have hraise : Faithful T md5 (s.mapState State.raise) :=
          h.mapState h.wellFormed h.calls (Steady.refl s.toCore).toAdvance (fun _ _ => rfl)
            (fun _ _ _ _ _ hdisk => hdisk)
        exact Serves.of_faithful hraise rfl rfl
  | url q =>
      apply Serves.finishCallback_setTaskOf h hmade rfl
      intro _
      apply hc

/-! ### The end of a transfer -/

/-- Completion handlers change no object. -/
theorem bucket_complete (E : Env) (r : TransferRef) (s : System) :
  (LCS3Hander.complete E r s).bucket = s.bucket
  := by
  have hfinish : ∀ q error s, (LCS3Hander.finishCallback E q error s).bucket = s.bucket := by
    intro q error s
    rw [LCS3Hander.finishCallback]
    split
    · rfl
    · rfl
  have hanswer : ∀ kind q error, (LCS3Hander.answerCompletion E kind q error s).bucket
      = s.bucket := by
    intro kind q error
    rw [LCS3Hander.answerCompletion]
    split
    · apply hfinish
    · split
      · apply hfinish
      · rfl
  have hremove : ∀ q s, (LCS3Hander.removeObject q s).bucket = s.bucket := by
    intro q s
    rw [LCS3Hander.removeObject]
    split
    · rfl
    · rfl
  simp only [LCS3Hander.complete]
  split
  · next handler _ =>
      rw [System.setTransfer, System.toHander_mapHander, runCompletionHandler]
      split
      · apply (hremove _ _).trans (hanswer _ _ _)
      · apply hanswer _ _ _
  · rfl

/-- The download leaves no file that is there, unless it has the bytes of the object. -/
def LeavesNoOther (t : AWSS3TransferUtilityTask) (s : System) : Prop :=
  t.kind = .download → s.disk.has t.path → s.disk t.path = s.bucket t.key

instance (t : AWSS3TransferUtilityTask) (s : System) : Decidable (LeavesNoOther t s) :=
  inferInstanceAs (Decidable (_ → _ → _))

/-- After a transfer of the object and the file of the task the file is the object. -/
theorem genuine_transferred {t : AWSS3TransferUtilityTask} {task : LCFileNetTask}
    (hof : t.IsOf task) (hother : LeavesNoOther t s)
    (hthere : (match t.kind with
      | .download => s.bucket.has t.key
      | _ => s.disk.has t.path) = true) :
  Genuine task (LCS3Hander.transferred t s)
  := by
  obtain ⟨-, hkey, hpath⟩ := hof
  have hupload : s.disk.has t.path → Genuine task
      (s.mapBucket (fun bucket => Function.update bucket t.key (s.disk t.path))) := by
    intro hfile
    obtain ⟨content, hcontent⟩ := Disk.has_iff.mp hfile
    refine ⟨content, ?_, ?_⟩
    · rw [hpath]
      apply hcontent
    · rw [hkey, ← hcontent]
      apply Function.update_self t.key (s.disk t.path) s.bucket
  rw [LCS3Hander.transferred]
  cases hkind : t.kind with
  | upload =>
      rw [hkind] at hthere
      apply hupload hthere
  | multiPartUpload =>
      rw [hkind] at hthere
      apply hupload hthere
  | download =>
      rw [hkind] at hthere
      obtain ⟨content, hcontent⟩ := Disk.has_iff.mp hthere
      simp only
      split
      · next hfile =>
          refine ⟨content, ?_, ?_⟩
          · rw [hpath]
            apply (hother hkind hfile).trans hcontent
          · rw [hkey]
            apply hcontent
      · refine ⟨content, ?_, ?_⟩
        · rw [hpath, ← hcontent]
          apply Function.update_self t.path (s.bucket t.key) s.disk
        · rw [hkey]
          apply hcontent

/-- A transfer changes files and objects, but no file that is there. -/
theorem Faithful.transferred (h : Faithful T md5 s) (t : AWSS3TransferUtilityTask)
    (hobject : ∀ c ∈ s.waiting, c.done → ∀ key content,
      (s.taskOfRequest c.request).fileKey = some key → s.bucket key = some content →
        (LCS3Hander.transferred t s).bucket key = some content) :
  Faithful T md5 (LCS3Hander.transferred t s)
  := by
  have hupload : ∀ bucket, (∀ c ∈ s.waiting, c.done → ∀ key content,
      (s.taskOfRequest c.request).fileKey = some key → s.bucket key = some content →
        (s.mapBucket bucket).bucket key = some content) → Faithful T md5 (s.mapBucket bucket) := by
    intro bucket hobject
    exact h.congr h.wellFormed h.calls (Steady.refl s.toCore).toAdvance rfl (fun _ hc => hc)
      (fun _ _ hhandler => hhandler) (fun _ _ hof => hof) (fun _ _ => rfl)
      (fun _ _ _ _ _ hdisk => hdisk) hobject
  rw [LCS3Hander.transferred] at hobject ⊢
  cases hkind : t.kind with
  | upload =>
      rw [hkind] at hobject
      exact hupload _ hobject
  | multiPartUpload =>
      rw [hkind] at hobject
      exact hupload _ hobject
  | download =>
      simp only
      split
      · exact h
      · next hfile =>
          apply h.update_disk
          apply Bool.eq_false_iff.mpr hfile

theorem transferred_rest (t : AWSS3TransferUtilityTask) (s : System) :
  (LCS3Hander.transferred t s).tasks = s.tasks ∧
    (LCS3Hander.transferred t s).requests = s.requests ∧
    (LCS3Hander.transferred t s).transfers = s.transfers ∧
    (LCS3Hander.transferred t s).notes = s.notes ∧
    (LCS3Hander.transferred t s).answers = s.answers
  := by
  rw [LCS3Hander.transferred]
  split
  · split
    · exact ⟨rfl, rfl, rfl, rfl, rfl⟩
    · exact ⟨rfl, rfl, rfl, rfl, rfl⟩
  · exact ⟨rfl, rfl, rfl, rfl, rfl⟩

theorem Serves.endTransfer (h : Faithful T md5 s) {r : TransferRef} {error : Option NSError}
    (hmay : mayEnd r error s)
    (hother : error = none → ∀ handler ∈ (s.transfers.cell r).completionHandler,
      Concerns T handler.request s → LeavesNoOther (s.transfers.cell r) s)
    (hobject : ∀ c ∈ s.waiting, c.done → ∀ key content,
      (s.taskOfRequest c.request).fileKey = some key → s.bucket key = some content →
        (LCS3Hander.endTransfer (quiet md5) r error s).bucket key = some content) :
  Serves T md5 s (LCS3Hander.endTransfer (quiet md5) r error s)
  := by
  rw [LCS3Hander.endTransfer] at hobject ⊢
  rw [bucket_complete] at hobject
  have hfinish : ∀ s' : System, Faithful T md5 s' →
      Faithful T md5 (s'.setTransfer r (AWSS3TransferUtilityTask.finish error)) := by
    intro s' h'
    apply h'.setTransfer
    · exact fun _ _ hhandler => hhandler
    · exact fun _ _ hof => hof
  cases error with
  | some error =>
      have hmute : Mute s (s.setTransfer r (AWSS3TransferUtilityTask.finish (some error))) :=
        Mute.of_eq rfl rfl
      apply Serves.after hmute
      apply Serves.complete (hfinish s h)
      intro handler _ herror
      rw [System.cell_setTransfer, if_pos rfl] at herror
      cases herror
  | none =>
      obtain ⟨htasks, hrequests, htransfers, hnotes, hanswers⟩ :=
        @transferred_rest (s.transfers.cell r) s
      simp only [Option.isSome_none, Bool.false_eq_true, if_false] at hobject ⊢
      have htransferred := h.transferred (s.transfers.cell r) hobject
      have hmute : Mute s ((LCS3Hander.transferred (s.transfers.cell r) s).setTransfer r
          (AWSS3TransferUtilityTask.finish none)) := Mute.of_eq hnotes hanswers
      apply Serves.after hmute
      apply Serves.complete (hfinish _ htransferred)
      intro handler hhandler _ hconcerns
      rw [System.cell_setTransfer, if_pos rfl, htransfers] at hhandler
      have hsame : SameRequest handler.request s
          ((LCS3Hander.transferred (s.transfers.cell r) s).setTransfer r
            (AWSS3TransferUtilityTask.finish none)) := by
        constructor
        · apply congrFun (congrArg Heap.cell hrequests) _
        · change ((LCS3Hander.transferred (s.transfers.cell r) s).taskOfRequest
            handler.request).place = _
          rw [System.taskOfRequest, System.taskOfRequest, htasks, hrequests]
      have hconcerns' := hsame.concerns.mp hconcerns
      rw [mayEnd, Bool.and_eq_true, Bool.and_eq_true, Option.isSome_none, Bool.false_or] at hmay
      have hgenuine := genuine_transferred (h.carries r handler hhandler hconcerns')
        (hother rfl handler hhandler hconcerns') hmay.2
      apply hgenuine.congr hsame.place
      · exact fun _ _ _ hdisk => hdisk
      · exact fun _ _ _ hobject => hobject

/-! ### Other steps -/

theorem Serves.progressBlock (h : Faithful T md5 s) (r : TransferRef) (completed total : Int) :
  Serves T md5 s (LCS3Hander.progressBlock (quiet md5) r completed total s)
  := by
  rw [LCS3Hander.progressBlock]
  split
  · next handler hhandler =>
      have hmute : Mute s (s.setTaskOf handler.request (fun task => { task with
          finishedSize := max completed task.finishedSize
          totalSize := total })) := Mute.of_eq rfl rfl
      have hset : Faithful T md5 (s.setTaskOf handler.request (fun task => { task with
          finishedSize := max completed task.finishedSize
          totalSize := total })) := h.setTaskOf handler.request rfl
      obtain ⟨hfaithful, hmute', -⟩ := Serves.progressCallback hset (h.held r handler hhandler)
      apply Serves.after hmute
      exact ⟨hfaithful, hmute'.told⟩
  · apply Serves.of_faithful h rfl rfl

theorem Faithful.loadTransfers (h : Faithful T md5 s) (transfers : List TransferRef) :
  Faithful T md5 (LCS3Hander.loadTransfers transfers s) ∧
    Mute s (LCS3Hander.loadTransfers transfers s)
  := by
  induction transfers generalizing s with
  | nil => exact ⟨h, Mute.of_eq rfl rfl⟩
  | cons r transfers ih =>
      have henter : Faithful T md5 ((s.send r .suspend AWSS3TransferUtilityTask.suspend).mapHander
          (fun h => { h with taskDic := h.taskDic.insert (h.transfers.cell r).key r })) :=
        (h.suspend r).hander rfl rfl rfl (fun _ hc => hc) (fun _ _ hhandler => hhandler)
          (fun _ _ hof => hof)
      have hmute : Mute s ((s.send r .suspend AWSS3TransferUtilityTask.suspend).mapHander
          (fun h => { h with taskDic := h.taskDic.insert (h.transfers.cell r).key r })) :=
        Mute.of_eq rfl rfl
      obtain ⟨hfaithful, hmute'⟩ := ih henter
      exact ⟨hfaithful, hmute.trans hmute'⟩

/-! ### Events of the service -/

/-- The application leaves alone the direction, the object and the file of tasks that something
waits for, and the files of those a continuation waits for. -/
def Respects (s : System) : Event → Prop
  | .set task t => ∀ q, Active q s → (s.requests.cell q).task = task →
      t.place = (s.tasks.cell task).place
  | .edit path _ => ∀ c ∈ s.waiting, (s.taskOfRequest c.request).filePath ≠ some path
  | _ => True

/-- The application leaves running tasks and their files alone. -/
def LeavesAloneRunning (s : System) (e : HanderEvent) : Prop :=
  ∀ e', e = .service e' → Respects s e'

/-- The event edits a file or the properties of a task. -/
def HanderEvent.edits : HanderEvent → Bool
  | .service (.set _ _) | .service (.edit _ _) => true
  | _ => false

/-- Where nothing is edited, running tasks and their files are left alone. -/
theorem along_leavesAloneRunning {E : Env} {es : List HanderEvent}
    (h : ∀ e ∈ es, e.edits = false) (s : System) :
  Run.Along (System.step E) LeavesAloneRunning s es
  := by
  apply Run.along_of_mem
  rintro e he s e' rfl
  have hedits := h _ he
  cases e' with
  | set task t => cases hedits
  | edit path content => cases hedits
  | _ => trivial

/-- If the task found for the task id of a task has finished, its file is the object. -/
def FoundGenuine (T : LCFileNetTaskType) (task : TaskRef) (s : System) : Prop :=
  task < s.tasks.next → ∀ taskId ∈ (s.tasks.cell task).taskId, ∀ t ∈ s.foundTask taskId,
    t.status = .finish → t.type = T → Genuine t s

instance (T : LCFileNetTaskType) (task : TaskRef) (s : System) :
    Decidable (FoundGenuine T task s) :=
  inferInstanceAs (Decidable (_ → ∀ taskId ∈ _, ∀ t ∈ _, _ → _ → _))

/-- What the service tells of tasks that are genuine successes is genuine. -/
theorem Told.of_reports {P : TaskRef → Prop} {f : State → State}
    (hreports : Reports P s.toState (f s.toState))
    (hgenuine : ∀ r, P r → ((f s.toState).tasks.cell r).type = T →
      Genuine ((f s.toState).tasks.cell r) (s.mapState f)) :
  Told T s (s.mapState f)
  := by
  obtain ⟨ns, hns, hsuccess⟩ := hreports.notes
  refine ⟨⟨ns, hns, ?_⟩, [], ?_, ?_⟩
  · intro n hn hn'
    apply hgenuine n.task (hsuccess n hn hn')
  · apply (List.append_nil _).symm
  · rintro a ⟨⟩

/-- Where the service tells nothing, nothing is told. -/
theorem Told.of_mapState {f : State → State} (hnotes : (f s.toState).notes = s.notes) :
  Told T s (s.mapState f)
  := by
  have hmute : Mute s (s.mapState f) := Mute.of_eq hnotes rfl
  apply hmute.told

/-- The properties of a task object are set. -/
theorem Faithful.set (h : Faithful T md5 s) {task : TaskRef} {t : LCFileNetTask}
    (hrespects : Respects s (.set task t)) :
  Faithful T md5 (s.mapState (·.mapCore (·.setTask task (fun _ => t))))
  := by
  apply h.mapState
  · apply h.wellFormed.setTask _ _
  · apply h.calls
  · apply (Steady.setTask _ _ s.toCore).toAdvance
  · intro q hq
    by_cases htask : (s.requests.cell q).task = task
    · subst htask
      apply Core.map_setTask LCFileNetTask.place (hrespects q hq rfl) _
    · have hcell := Heap.cell_modify task (fun t' => { t with taskId := t'.taskId }) s.tasks
        (s.requests.cell q).task
      rw [if_neg htask] at hcell
      apply congrArg LCFileNetTask.place hcell
  · exact fun _ _ _ _ _ hdisk => hdisk

/-- A file is edited. -/
theorem Faithful.edit (h : Faithful T md5 s) {path : String} {content : Option Bytes}
    (hrespects : Respects s (.edit path content)) :
  Faithful T md5 (s.mapState
    (·.mapCore (fun c => { c with disk := Function.update c.disk path content })))
  := by
  apply h.mapDisk (f := fun disk => Function.update disk path content)
  intro c hc path' content' hpath hdisk
  have hne : path' ≠ path := by
    rintro rfl
    apply hrespects c hc hpath
  apply (Function.update_of_ne hne content s.disk).trans hdisk

/-- An event of the service keeps the system faithful, and it tells a success only of a task that
is started again. -/
theorem Faithful.event (h : Faithful T md5 s) {e : Event} (hrestart : e ≠ .restart)
    (hfinish : ∀ r error, e ≠ .finish r error) (hrespects : Respects s e) :
  Faithful T md5 (s.mapState (fun s => LCCFileService.step (quiet md5) s e)) ∧
    ((∀ task, e = .startTask task → FoundGenuine T task s) →
      Told T s (s.mapState (fun s => LCCFileService.step (quiet md5) s e)))
  := by
  by_cases hset : ∃ task t, e = .set task t
  · obtain ⟨task, t, rfl⟩ := hset
    refine ⟨?_, fun _ => Told.of_mapState ?_⟩
    · by_cases hlt : task < s.tasks.next
      · have hset : s.mapState (fun s => LCCFileService.step (quiet md5) s (.set task t))
            = s.mapState (·.mapCore (·.setTask task (fun _ => t))) :=
          System.mapState_congr (if_pos hlt)
        rw [hset]
        apply h.set hrespects
      · have hsame : s.mapState (fun s => LCCFileService.step (quiet md5) s (.set task t)) = s :=
          System.mapState_eq_self (if_neg hlt)
        rw [hsame]
        apply h
    · simp only [LCCFileService.step]
      split
      · rfl
      · rfl
  by_cases hedit : ∃ path content, e = .edit path content
  · obtain ⟨path, content, rfl⟩ := hedit
    exact ⟨h.edit hrespects, fun _ => Told.of_mapState rfl⟩
  by_cases hstart : ∃ task, e = .startTask task
  · obtain ⟨task, rfl⟩ := hstart
    by_cases hlt : task < s.tasks.next
    · have hstart : s.mapState (fun s => LCCFileService.step (quiet md5) s (.startTask task))
          = s.mapState (LCFileNetService.lcStartTask (quiet md5) task) :=
        System.mapState_congr (if_pos hlt)
      have hreports := @Reports.lcStartTask md5 task s.toState
      have hservice : Faithful T md5
          (s.mapState (fun s => LCCFileService.step (quiet md5) s (.startTask task))) := by
        apply h.service hrestart
        rw [LCCFileService.step, if_pos hlt]
        apply hreports
      rw [hstart] at hservice ⊢
      refine ⟨hservice, fun hstarts => Told.of_reports hreports ?_⟩
      rintro r ⟨taskId, t, htaskId, hfound, hstatus, hplace⟩ htype
      apply (hstarts task rfl hlt taskId htaskId t hfound hstatus _).congr hplace
      · intro path content _ hdisk
        apply (congrFun hreports.disk path).trans hdisk
      · exact fun _ _ _ hobject => hobject
      · apply (congrArg Prod.fst hplace).symm.trans htype
    · have hsame : s.mapState (fun s => LCCFileService.step (quiet md5) s (.startTask task)) = s :=
        System.mapState_eq_self (if_neg hlt)
      rw [hsame]
      exact ⟨h, fun _ => (Mute.of_eq rfl rfl).told⟩
  have hreports : Reports (fun _ => False) s.toState
      (LCCFileService.step (quiet md5) s.toState e) := by
    apply Reports.step h.wellFormed hrestart
    · intro task t he
      apply absurd ⟨task, t, he⟩ hset
    · intro path content he
      apply hedit ⟨path, content, he⟩
    · intro task he
      apply hstart ⟨task, he⟩
    · intro r error he
      apply absurd he (hfinish r error)
  refine ⟨h.service hrestart hreports, fun _ => Told.of_reports hreports ?_⟩
  rintro r ⟨⟩

/-! ### Steps -/

/-- The step keeps the objects of the tasks whose success is still to be reported. -/
def KeepsObjects (md5 : Bytes → String) (s : System) (e : HanderEvent) : Prop :=
  ∀ c ∈ s.waiting, c.done → ∀ key content, (s.taskOfRequest c.request).fileKey = some key →
    s.bucket key = some content → (System.step (quiet md5) s e).bucket key = some content

instance (md5 : Bytes → String) (s : System) (e : HanderEvent) :
    Decidable (KeepsObjects md5 s e) :=
  decidable_of_iff
    (∀ c ∈ s.waiting, c.done → ∀ key ∈ (s.taskOfRequest c.request).fileKey,
      ∀ content ∈ s.bucket key, (System.step (quiet md5) s e).bucket key = some content)
    ⟨fun h c hc hdone key content hkey hbucket => h c hc hdone key hkey content hbucket,
      fun h c hc hdone key hkey content hbucket => h c hc hdone key content hkey hbucket⟩

/-- A request of the service for a task of the type is one with the property. -/
def MakesOnly (T : LCFileNetTaskType) (R : Request → System → Prop) (s : System)
    (e : HanderEvent) : Prop :=
  ∀ r ∈ made s e, r.call.isSome → (s.tasks.cell r.task).type = T → R r s

instance (T : LCFileNetTaskType) (R : Request → System → Prop) [∀ r s, Decidable (R r s)]
    (s : System) (e : HanderEvent) : Decidable (MakesOnly T R s e) :=
  inferInstanceAs (Decidable (∀ r ∈ made s e, _ → _ → _))

/-- What is copied for a task of the type has the right bytes, and a transfer that ends for one
leaves no other file. -/
def MovesRightly (T : LCFileNetTaskType) (s : System) : HanderEvent → Prop
  | .goOn i _ none => ∀ c ∈ s.waiting[i]?, mayGoOn none s c → Concerns T c.request s →
      c.CopiesTruly s
  | .ends r none => mayEnd r none s → ∀ handler ∈ (s.transfers.cell r).completionHandler,
      Concerns T handler.request s → LeavesNoOther (s.transfers.cell r) s
  | _ => True

instance (T : LCFileNetTaskType) (s : System) : (e : HanderEvent) →
    Decidable (MovesRightly T s e)
  | .goOn i _ none => inferInstanceAs (Decidable (∀ c ∈ s.waiting[i]?, _ → _ → _))
  | .ends _ none => inferInstanceAs (Decidable (_ → ∀ handler ∈ _, _ → _))
  | .goOn _ _ (some _) | .ends _ (some _) | .body _ _ | .service _ | .call _ | .request _ _
  | .progress _ _ _ | .loadHistory _ _ _ => isTrue trivial

/-- The service calls a method of the handler. -/
theorem Serves.call (h : Faithful T md5 s) {r : CallRef} (huncalled : uncalled r s)
    (hmade : MakesOnly T
      (fun r s => RightDirection r s ∧ RightMd5 md5 r s ∧ FindsItsOwn r s) s (.call r)) :
  Serves T md5 s (LCS3Hander.request (quiet md5)
    ⟨(s.calls.cell r).method, s.taskOf (s.calls.cell r).op, some r⟩ s)
  := by
  have hmade := hmade _ (if_pos huncalled)
  rw [uncalled, Bool.and_eq_true, decide_eq_true_eq] at huncalled
  apply Serves.request h
  · intro hmethod
    refine ⟨h.wellFormed.owned _ (h.calls r huncalled.1 hmethod), ?_⟩
    rintro c ⟨⟩
    exact ⟨huncalled.1, hmethod, rfl⟩
  · apply hmade

/-- A waiting continuation goes on. -/
theorem Serves.goOnWaiting (h : Faithful T md5 s) {i : Nat} {c : Continuation}
    (hc : s.waiting[i]? = some c) (url : Option String) {error : Option NSError}
    (hmay : mayGoOn error s c)
    (hobjects : KeepsObjects md5 s (.goOn i url error))
    (hmoves : MovesRightly T s (.goOn i url error)) :
  Serves T md5 s (LCS3Hander.goOn (quiet md5) url error c (s.dropWaiting i))
  := by
  have hmem := List.mem_of_getElem? hc
  have hmute : Mute s (s.dropWaiting i) := Mute.of_eq rfl rfl
  have hsame : mayGoOn error (s.dropWaiting i) c = mayGoOn error s c := by
    cases c with
    | _ => rfl
  apply Serves.after hmute
  apply Serves.goOn (h.dropWaiting i) (h.waits c hmem)
  · intro hconcerns
    apply (h.promises c hmem hconcerns).hander rfl rfl rfl
  · rw [hsame]
    apply hmay
  · rintro rfl hconcerns
    have htruly := hmoves c hc hmay hconcerns
    cases c with
    | _ => apply htruly
  · intro c' hc' hdone key content hkey hbucket
    have hkept := hobjects c' (List.mem_of_mem_eraseIdx hc') hdone key content hkey hbucket
    rw [System.step, hc] at hkept
    simp only [hmay, if_true] at hkept
    apply hkept

/-- A step in which the right bytes are moved keeps the system faithful, and tells genuine
successes only. -/
theorem Faithful.step (h : Faithful T md5 s) {e : HanderEvent} (hrestart : e ≠ .service .restart)
    (hrespects : ∀ e', e = .service e' → Respects s e') (hobjects : KeepsObjects md5 s e)
    (hmade : MakesOnly T
      (fun r s => RightDirection r s ∧ RightMd5 md5 r s ∧ FindsItsOwn r s) s e)
    (hmoves : MovesRightly T s e) :
  Faithful T md5 (System.step (quiet md5) s e) ∧
    ((∀ task, e = .service (.startTask task) → FoundGenuine T task s) →
      Told T s (System.step (quiet md5) s e))
  := by
  have hboth : ∀ s' (P : Prop), Serves T md5 s s' → Faithful T md5 s' ∧ (P → Told T s s') :=
    fun s' _ hserves => ⟨hserves.faithful, fun _ => hserves.told⟩
  have hself : Serves T md5 s s := Serves.of_faithful h rfl rfl
  cases e with
  | service e =>
      have hevent : e ≠ .restart → (∀ r error, e ≠ .finish r error) →
          Faithful T md5 (s.mapState (fun s => LCCFileService.step (quiet md5) s e)) ∧
            ((∀ task, HanderEvent.service e = .service (.startTask task) →
                FoundGenuine T task s) →
              Told T s (s.mapState (fun s => LCCFileService.step (quiet md5) s e))) := by
        intro hrestart' hfinish
        obtain ⟨hfaithful, htold⟩ := h.event hrestart' hfinish (hrespects e rfl)
        refine ⟨hfaithful, fun hstarts => htold ?_⟩
        rintro task rfl
        apply hstarts task rfl
      cases e with
      | restart => apply absurd rfl hrestart
      | progress r => apply hboth _ _ hself
      | finish r error => apply hboth _ _ hself
      | _ => apply hevent (by rintro ⟨⟩) (by rintro _ _ ⟨⟩)
  | call r =>
      apply hboth
      rw [System.step]
      split
      · next huncalled => exact Serves.call h huncalled hmade
      · apply hself
  | request method task =>
      apply hboth
      rw [System.step]
      split
      · next htask =>
          apply Serves.request h
          · intro _
            refine ⟨htask, ?_⟩
            rintro c ⟨⟩
          · apply hmade _ (if_pos htask)
      · apply hself
  | goOn i url error =>
      apply hboth
      rw [System.step]
      split
      · next c hc =>
          split
          · next hmay => exact Serves.goOnWaiting h hc url hmay hobjects hmoves
          · apply hself
      · apply hself
  | ends r error =>
      apply hboth
      rw [System.step]
      split
      · next hmay =>
          apply Serves.endTransfer h hmay
          · rintro rfl
            apply hmoves hmay
          · intro c hc hdone key content hkey hbucket
            have hkept := hobjects c hc hdone key content hkey hbucket
            rw [System.step, if_pos hmay] at hkept
            apply hkept
      · apply hself
  | body r body =>
      apply hboth
      rw [System.step]
      split
      · next hmay =>
          simp only [mayMove, Bool.and_eq_true, Bool.not_eq_true'] at hmay
          exact Serves.of_faithful (h.update_disk hmay.2 (some body)) rfl rfl
      · apply hself
  | progress r completed total =>
      apply hboth
      rw [System.step]
      split
      · apply Serves.progressBlock h r completed total
      · apply hself
  | loadHistory uploads multiParts downloads =>
      apply hboth
      rw [System.step]
      split
      · obtain ⟨huploads, hmute⟩ := h.loadTransfers uploads
        obtain ⟨hmultiParts, hmute'⟩ := huploads.loadTransfers multiParts
        obtain ⟨hdownloads, hmute''⟩ := hmultiParts.loadTransfers downloads
        exact ⟨hdownloads, ((hmute.trans hmute').trans hmute'').told⟩
      · apply hself

end

theorem Faithful.initial (T : LCFileNetTaskType) (md5 : Bytes → String) (db : TaskTable)
    (disk : Disk String Bytes) (transfers : Heap AWSS3TransferUtilityTask)
    (bucket : Disk String Bytes) :
  Faithful T md5 (System.initial db disk transfers bucket)
  := by
  constructor
  · apply WellFormed.initial
  · rintro r ⟨⟩
  · rintro q ⟨⟨⟩, -⟩
  · rintro c ⟨⟩
  · rintro c ⟨⟩
  · rintro r handler ⟨⟩
  · rintro r handler ⟨⟩

/-- A step in which the right bytes are moved keeps the system faithful, what is answered by it is
genuine, and so is what is told, unless a task that has finished is started again when its file is
not the object. -/
theorem Faithful.news {T : LCFileNetTaskType} {md5 : Bytes → String} {s : System}
    (h : Faithful T md5 s) {e : HanderEvent} (halone : LeavesAloneRunning s e)
    (hobjects : KeepsObjects md5 s e)
    (hmade : MakesOnly T
      (fun r s => RightDirection r s ∧ RightMd5 md5 r s ∧ FindsItsOwn r s) s e)
    (hmoves : MovesRightly T s e) :
  Faithful T md5 (System.step (quiet md5) s e) ∧
    (∀ a ∈ (System.step (quiet md5) s e).answers.drop s.answers.length, a.2 = none →
      Concerns T a.1 (System.step (quiet md5) s e) →
        Genuine ((System.step (quiet md5) s e).taskOfRequest a.1) (System.step (quiet md5) s e)) ∧
    ((∀ task, e = .service (.startTask task) → FoundGenuine T task s) →
      ∀ n ∈ (System.step (quiet md5) s e).notes.drop s.notes.length, n.success →
        ((System.step (quiet md5) s e).tasks.cell n.task).type = T →
          Genuine ((System.step (quiet md5) s e).tasks.cell n.task) (System.step (quiet md5) s e))
  := by
  by_cases hrestart : e = .service .restart
  · subst hrestart
    have hnotes : (System.step (quiet md5) s (.service .restart)).notes = [] := rfl
    have hanswers : (System.step (quiet md5) s (.service .restart)).answers = [] := rfl
    refine ⟨Faithful.initial T md5 s.db s.disk s.transfers s.bucket, ?_, ?_⟩
    · rw [hanswers, List.drop_nil]
      rintro a ⟨⟩
    · rw [hnotes, List.drop_nil]
      rintro - n ⟨⟩
  · obtain ⟨hfaithful, htold⟩ := h.step hrestart halone hobjects hmade hmoves
    refine ⟨hfaithful, ?_, ?_⟩
    · by_cases hstarts : ∃ task, e = .service (.startTask task)
      · obtain ⟨task, rfl⟩ := hstarts
        have hanswers :
            (System.step (quiet md5) s (.service (.startTask task))).answers = s.answers := rfl
        rw [hanswers, List.drop_length]
        rintro a ⟨⟩
      · obtain ⟨-, as, has, hgenuine⟩ := htold (by
          rintro task rfl
          apply absurd ⟨task, rfl⟩ hstarts)
        rw [has, List.drop_left]
        apply hgenuine
    · intro hstarts
      obtain ⟨⟨ns, hns, hgenuine⟩, -⟩ := htold hstarts
      rw [hns, List.drop_left]
      apply hgenuine

end LCCFileService
