import LCCFileService.AWSS3.Answers
import LCCFileService.FileNet.Successes

/-!
# Genuine successes

A success is genuine if the file of the task is the object of its key.  The handler reports
one long after it has moved the bytes, so whatever waits for a request promises what it
needs: that the bytes it has moved are still there, and that what it is going to move are
the right ones.
-/

namespace LCCFileService

open LCS3Hander

/-- The file of the task is the object of its key. -/
def Genuine (t : LCFileNetTask) (s : System) : Prop :=
  ∃ content, t.filePath.bind s.disk = some content ∧ t.fileKey.bind s.bucket = some content

instance (t : LCFileNetTask) (s : System) : Decidable (Genuine t s) :=
  decidable_of_iff
    ((t.filePath.bind s.disk).isSome ∧ t.filePath.bind s.disk = t.fileKey.bind s.bucket)
    (by
      rw [Option.isSome_iff_exists]
      constructor
      · rintro ⟨⟨content, hfile⟩, heq⟩
        exact ⟨content, hfile, heq.symm.trans hfile⟩
      · rintro ⟨content, hfile, hobject⟩
        exact ⟨⟨content, hfile⟩, hfile.trans hobject.symm⟩)

/-- The direction of the transfers a method is for. -/
def HanderMethod.type : HanderMethod → LCFileNetTaskType
  | .upload | .resumUpload => .upload
  | .download | .resumDownload => .download
  | .cancel | .pause => .unknown

/-- The direction of a transfer. -/
def TransferKind.type : TransferKind → LCFileNetTaskType
  | .upload | .multiPartUpload => .upload
  | .download => .download

/-- The request is a call of the service, for a task of the type. -/
def Concerns (T : LCFileNetTaskType) (q : RequestRef) (s : System) : Prop :=
  (s.requests.cell q).call.isSome ∧ (s.taskOfRequest q).type = T

instance (T : LCFileNetTaskType) (q : RequestRef) (s : System) : Decidable (Concerns T q s) :=
  inferInstanceAs (Decidable (_ ∧ _))

/-- The request is to be answered by a copy: its method starts a transfer of the direction of the
task. -/
def Copies (method : HanderMethod) (q : RequestRef) (s : System) : Prop :=
  (s.requests.cell q).method = method ∧ (s.taskOfRequest q).type = method.type

/-- The bytes have been moved, and the success is still to be reported. -/
def Continuation.done : Continuation → Bool
  | .copyURL _ _ | .copied _ _ none | .url _ => true
  | _ => false

/-- What a waiting continuation promises.  The file an object is copied for has the MD5 of the row
of the source. -/
def Continuation.Promises (md5 : Bytes → String) (s : System) : Continuation → Prop
  | .replicate q source key =>
      Copies .upload q s ∧ key = (s.taskOfRequest q).fileKey ∧
        ∃ content, (s.taskOfRequest q).filePath.bind s.disk = some content ∧
          source.md5 = some (md5 content)
  | .copyURL q _ => Copies .upload q s ∧ Genuine (s.taskOfRequest q) s
  | .copyItem q _ => Copies .download q s
  | .copied q _ error =>
      Copies .download q s ∧ (error = none → Genuine (s.taskOfRequest q) s)
  | .start q kind key path =>
      kind.type = (s.taskOfRequest q).type ∧ (s.taskOfRequest q).fileKey = some key ∧
        (s.taskOfRequest q).filePath = some path
  | .started _ _ => True
  | .url q => Genuine (s.taskOfRequest q) s

/-- The transfer is one of the object and the file of the task. -/
def AWSS3TransferUtilityTask.IsOf (task : LCFileNetTask) (t : AWSS3TransferUtilityTask) : Prop :=
  t.kind.type = task.type ∧ task.fileKey = some t.key ∧ task.filePath = some t.path

instance (task : LCFileNetTask) (t : AWSS3TransferUtilityTask) : Decidable (t.IsOf task) :=
  inferInstanceAs (Decidable (_ ∧ _))

/-- The task of a request is that of the call of the service it is. -/
def Linked (q : RequestRef) (s : System) : Prop :=
  (s.requests.cell q).task < s.tasks.next ∧ ∀ r, (s.requests.cell q).call = some r →
    r < s.calls.next ∧ (s.calls.cell r).method.transfers ∧
      s.taskOf (s.calls.cell r).op = (s.requests.cell q).task

/-- The request has been made, and its method has a finish block. -/
def Made (q : RequestRef) (s : System) : Prop :=
  q < s.requests.next ∧ (s.requests.cell q).method.transfers

/-- What waits for the requests that concern tasks of the type promises what it has to, and so do
the transfers with their completion handlers. -/
structure Faithful (T : LCFileNetTaskType) (md5 : Bytes → String) (s : System) : Prop where
  wellFormed : WellFormed s.toCore
  calls : CallsOwned s.toCore
  linked : ∀ q, Made q s → Linked q s
  waits : ∀ c ∈ s.waiting, Made c.request s
  promises : ∀ c ∈ s.waiting, Concerns T c.request s → c.Promises md5 s
  held : ∀ r, ∀ handler ∈ (s.transfers.cell r).completionHandler, Made handler.request s
  carries : ∀ r, ∀ handler ∈ (s.transfers.cell r).completionHandler,
    Concerns T handler.request s → (s.transfers.cell r).IsOf (s.taskOfRequest handler.request)

/-! ### Keeping promises -/

section

variable {md5 : Bytes → String} {s s' : System}

/-- The requests that have been made are still made when another is entered. -/
theorem Made.addRequest {q : RequestRef} (h : Made q s) {r : Request} :
  Made q (s.addRequest r)
  := by
  obtain ⟨hlt, hmethod⟩ := h
  have hcell : (s.addRequest r).requests.cell q = s.requests.cell q :=
    Heap.cell_alloc_of_lt r hlt
  refine ⟨Nat.lt_succ_of_lt hlt, ?_⟩
  rw [hcell]
  apply hmethod

/-- A file and an object that stay, and equal bytes in both, remain equal. -/
theorem Genuine.congr {t t' : LCFileNetTask} (h : Genuine t s) (hplace : t'.place = t.place)
    (hfile : ∀ path content, t.filePath = some path → s.disk path = some content →
      s'.disk path = some content)
    (hobject : ∀ key content, t.fileKey = some key → s.bucket key = some content →
      s'.bucket key = some content) :
  Genuine t' s'
  := by
  obtain ⟨content, hdisk, hbucket⟩ := h
  obtain ⟨path, hpath, hdisk⟩ := Option.bind_eq_some_iff.mp hdisk
  obtain ⟨key, hkey, hbucket⟩ := Option.bind_eq_some_iff.mp hbucket
  rw [LCFileNetTask.place, LCFileNetTask.place, Prod.mk.injEq, Prod.mk.injEq] at hplace
  refine ⟨content, ?_, ?_⟩
  · rw [hplace.2.2, hpath]
    apply hfile path content hpath hdisk
  · rw [hplace.2.1, hkey]
    apply hobject key content hkey hbucket

/-- What a request is and what its transfer is about stay the same. -/
structure SameRequest (q : RequestRef) (s s' : System) : Prop where
  request : s'.requests.cell q = s.requests.cell q
  place : (s'.taskOfRequest q).place = (s.taskOfRequest q).place

namespace SameRequest

variable {q : RequestRef}

theorem type (h : SameRequest q s s') :
  (s'.taskOfRequest q).type = (s.taskOfRequest q).type
  := congrArg Prod.fst h.place

theorem fileKey (h : SameRequest q s s') :
  (s'.taskOfRequest q).fileKey = (s.taskOfRequest q).fileKey
  := congrArg (fun place => place.2.1) h.place

theorem filePath (h : SameRequest q s s') :
  (s'.taskOfRequest q).filePath = (s.taskOfRequest q).filePath
  := congrArg (fun place => place.2.2) h.place

theorem setTaskOf {f : LCFileNetTask → LCFileNetTask}
    (hf : (f (s.taskOfRequest q)).place = (s.taskOfRequest q).place) :
  SameRequest q s (s.setTaskOf q f)
  := ⟨rfl, Core.map_setTask LCFileNetTask.place hf _⟩

theorem concerns {T : LCFileNetTaskType} (h : SameRequest q s s') :
  Concerns T q s' ↔ Concerns T q s
  := by
  rw [Concerns, Concerns, h.request, h.type]

theorem copies {method : HanderMethod} (h : SameRequest q s s') :
  Copies method q s' ↔ Copies method q s
  := by
  rw [Copies, Copies, h.request, h.type]

end SameRequest

/-- Setting properties of the task that its transfer is not about keeps what is genuine. -/
theorem genuine_setTaskOf {q : RequestRef} (h : Genuine (s.taskOfRequest q) s)
    {f : LCFileNetTask → LCFileNetTask}
    (hf : (f (s.taskOfRequest q)).place = (s.taskOfRequest q).place) :
  Genuine ((s.setTaskOf q f).taskOfRequest q) (s.setTaskOf q f)
  := h.congr (SameRequest.setTaskOf hf).place (fun _ _ _ hdisk => hdisk)
      (fun _ _ _ hobject => hobject)

/-- A promise is kept if the request is the same and the file and the object stay. -/
theorem Continuation.Promises.congr {c : Continuation} (h : c.Promises md5 s)
    (hsame : SameRequest c.request s s')
    (hfile : ∀ path content, (s.taskOfRequest c.request).filePath = some path →
      s.disk path = some content → s'.disk path = some content)
    (hobject : c.done → ∀ key content, (s.taskOfRequest c.request).fileKey = some key →
      s.bucket key = some content → s'.bucket key = some content) :
  c.Promises md5 s'
  := by
  cases c with
  | replicate q source key =>
      obtain ⟨hcopies, hkey, content, hdisk, hmd5⟩ := h
      obtain ⟨path, hpath, hdisk⟩ := Option.bind_eq_some_iff.mp hdisk
      have hpath' : (s'.taskOfRequest q).filePath = some path := hsame.filePath.trans hpath
      refine ⟨hsame.copies.mpr hcopies, hkey.trans hsame.fileKey.symm, content, ?_, hmd5⟩
      rw [hpath']
      apply hfile path content hpath hdisk
  | copyURL q source =>
      exact ⟨hsame.copies.mpr h.1, h.2.congr hsame.place hfile (hobject rfl)⟩
  | copyItem q source => apply hsame.copies.mpr h
  | copied q source error =>
      refine ⟨hsame.copies.mpr h.1, ?_⟩
      rintro rfl
      apply (h.2 rfl).congr hsame.place hfile (hobject rfl)
  | start q kind key path =>
      obtain ⟨hkind, hkey, hpath⟩ := h
      exact ⟨hkind.trans hsame.type.symm, hsame.fileKey.trans hkey, hsame.filePath.trans hpath⟩
  | started q r => trivial
  | url q => apply Genuine.congr h hsame.place hfile (hobject rfl)

/-- What the request of a continuation is stays, so does what the transfer is of. -/
theorem AWSS3TransferUtilityTask.IsOf.congr {t : AWSS3TransferUtilityTask} {q : RequestRef}
    (h : t.IsOf (s.taskOfRequest q)) (hsame : SameRequest q s s') :
  t.IsOf (s'.taskOfRequest q)
  := by
  obtain ⟨hkind, hkey, hpath⟩ := h
  exact ⟨hkind.trans hsame.type.symm, hsame.fileKey.trans hkey, hsame.filePath.trans hpath⟩

/-- A promise does not depend on what else waits, or on the transfers. -/
theorem Continuation.Promises.hander {c : Continuation} (h : c.Promises md5 s)
    (hstate : s'.toState = s.toState) (hrequests : s'.requests = s.requests)
    (hbucket : s'.bucket = s.bucket) :
  c.Promises md5 s'
  := by
  apply h.congr
  · constructor
    · rw [hrequests]
    · rw [System.taskOfRequest, System.taskOfRequest, hrequests, hstate]
  · rw [hstate]
    exact fun _ _ _ hdisk => hdisk
  · rw [hbucket]
    exact fun _ _ _ _ hobject => hobject

end

/-! ### What stays faithful -/

/-- Something waits for the request, or a transfer has its completion handler. -/
def Active (q : RequestRef) (s : System) : Prop :=
  (∃ c ∈ s.waiting, c.request = q) ∨
    ∃ r, ∃ handler ∈ (s.transfers.cell r).completionHandler, handler.request = q

namespace Faithful

variable {T : LCFileNetTaskType} {md5 : Bytes → String} {s s' : System}

theorem made_of_active (h : Faithful T md5 s) {q : RequestRef} (hq : Active q s) :
  Made q s
  := by
  rcases hq with ⟨c, hc, rfl⟩ | ⟨r, handler, hhandler, rfl⟩
  · apply h.waits c hc
  · apply h.held r handler hhandler

/-- The system stays faithful if nothing new waits, the tasks of active requests keep what their
transfers are about, and the files and objects of promises stay. -/
theorem congr (h : Faithful T md5 s) (hwf : WellFormed s'.toCore) (hcalls : CallsOwned s'.toCore)
    (hadvance : Advance (fun _ => True) s.toCore s'.toCore)
    (hrequests : s'.requests = s.requests) (hwaiting : ∀ c ∈ s'.waiting, c ∈ s.waiting)
    (hheld : ∀ r, ∀ handler ∈ (s'.transfers.cell r).completionHandler,
      handler ∈ (s.transfers.cell r).completionHandler)
    (hof : ∀ r task, (s.transfers.cell r).IsOf task → (s'.transfers.cell r).IsOf task)
    (hplace : ∀ q, Active q s → (s'.taskOfRequest q).place = (s.taskOfRequest q).place)
    (hfile : ∀ c ∈ s.waiting, ∀ path content,
      (s.taskOfRequest c.request).filePath = some path → s.disk path = some content →
        s'.disk path = some content)
    (hobject : ∀ c ∈ s.waiting, c.done → ∀ key content,
      (s.taskOfRequest c.request).fileKey = some key → s.bucket key = some content →
        s'.bucket key = some content) :
  Faithful T md5 s'
  := by
  have hsame : ∀ q, Active q s → SameRequest q s s' := by
    intro q hq
    refine ⟨?_, hplace q hq⟩
    rw [hrequests]
  have hmade : ∀ q, Made q s' ↔ Made q s := by
    intro q
    rw [Made, Made, hrequests]
  constructor
  · apply hwf
  · apply hcalls
  · intro q hq
    obtain ⟨hlt, hcall⟩ := h.linked q ((hmade q).mp hq)
    rw [Linked, hrequests]
    refine ⟨Nat.lt_of_lt_of_le hlt hadvance.tasks_le, ?_⟩
    intro r hr
    obtain ⟨hr', hmethod, htask⟩ := hcall r hr
    refine ⟨Nat.lt_of_lt_of_le hr' hadvance.calls_le, ?_, ?_⟩
    · rw [hadvance.method r hr']
      apply hmethod
    · rw [hadvance.op r hr', hadvance.task _ (h.calls r hr' hmethod)]
      apply htask
  · intro c hc
    apply (hmade _).mpr (h.waits c (hwaiting c hc))
  · intro c hc hconcerns
    have hc' := hwaiting c hc
    have hsame' := hsame c.request (Or.inl ⟨c, hc', rfl⟩)
    apply (h.promises c hc' (hsame'.concerns.mp hconcerns)).congr hsame' (hfile c hc')
      (hobject c hc')
  · intro r handler hhandler
    apply (hmade _).mpr (h.held r handler (hheld r handler hhandler))
  · intro r handler hhandler hconcerns
    have hhandler' := hheld r handler hhandler
    have hsame' := hsame handler.request (Or.inr ⟨r, handler, hhandler', rfl⟩)
    apply hof
    apply (h.carries r handler hhandler' (hsame'.concerns.mp hconcerns)).congr hsame'

/-- Where only the handler changes, and no object. -/
theorem hander (h : Faithful T md5 s) (hstate : s'.toState = s.toState)
    (hbucket : s'.bucket = s.bucket) (hrequests : s'.requests = s.requests)
    (hwaiting : ∀ c ∈ s'.waiting, c ∈ s.waiting)
    (hheld : ∀ r, ∀ handler ∈ (s'.transfers.cell r).completionHandler,
      handler ∈ (s.transfers.cell r).completionHandler)
    (hof : ∀ r task, (s.transfers.cell r).IsOf task → (s'.transfers.cell r).IsOf task) :
  Faithful T md5 s'
  := by
  apply h.congr
  · rw [hstate]
    apply h.wellFormed
  · rw [hstate]
    apply h.calls
  · rw [hstate]
    apply (Steady.refl s.toCore).toAdvance
  · apply hrequests
  · apply hwaiting
  · apply hheld
  · apply hof
  · intro q _
    rw [System.taskOfRequest, System.taskOfRequest, hrequests, hstate]
  · rw [hstate]
    exact fun _ _ _ _ _ hdisk => hdisk
  · rw [hbucket]
    exact fun _ _ _ _ _ _ hobject => hobject

/-- Where only the service changes. -/
theorem mapState {f : State → State} (h : Faithful T md5 s) (hwf : WellFormed (f s.toState).toCore)
    (hcalls : CallsOwned (f s.toState).toCore)
    (hadvance : Advance (fun _ => True) s.toCore (f s.toState).toCore)
    (hplace : ∀ q, Active q s → ((s.mapState f).taskOfRequest q).place = (s.taskOfRequest q).place)
    (hfile : ∀ c ∈ s.waiting, ∀ path content,
      (s.taskOfRequest c.request).filePath = some path → s.disk path = some content →
        (f s.toState).disk path = some content) :
  Faithful T md5 (s.mapState f)
  := h.congr hwf hcalls hadvance rfl (fun _ hc => hc) (fun _ _ hhandler => hhandler)
      (fun _ _ hof => hof) hplace hfile (fun _ _ _ _ _ _ hobject => hobject)

/-- Setting properties of a task that its transfer is not about. -/
theorem setTaskOf (h : Faithful T md5 s) (q : RequestRef) {f : LCFileNetTask → LCFileNetTask}
    (hf : (f (s.taskOfRequest q)).place = (s.taskOfRequest q).place) :
  Faithful T md5 (s.setTaskOf q f)
  := by
  apply h.mapState
  · apply h.wellFormed.setTask _ _
  · apply h.calls
  · apply (Steady.setTask _ _ s.toCore).toAdvance
  · intro q' _
    apply Core.map_setTask LCFileNetTask.place hf _
  · exact fun _ _ _ _ _ hdisk => hdisk

/-- A continuation comes to wait that keeps its promise. -/
theorem wait (h : Faithful T md5 s) {c : Continuation} (hmade : Made c.request s)
    (hc : Concerns T c.request s → c.Promises md5 s) :
  Faithful T md5 (s.wait c)
  := by
  constructor
  · apply h.wellFormed
  · apply h.calls
  · apply h.linked
  · intro c' hc'
    rcases List.mem_append.mp hc' with hc' | hc'
    · apply h.waits c' hc'
    · obtain rfl := List.mem_singleton.mp hc'
      apply hmade
  · intro c' hc' hconcerns
    rcases List.mem_append.mp hc' with hc' | hc'
    · apply (h.promises c' hc' hconcerns).hander rfl rfl rfl
    · obtain rfl := List.mem_singleton.mp hc'
      apply (hc hconcerns).hander rfl rfl rfl
  · apply h.held
  · apply h.carries

theorem dropWaiting (h : Faithful T md5 s) (i : Nat) :
  Faithful T md5 (s.dropWaiting i)
  := h.hander rfl rfl rfl (fun _ hc => List.mem_of_mem_eraseIdx hc) (fun _ _ hhandler => hhandler)
      (fun _ _ hof => hof)

/-- A step of the service that leaves alone the disk and what transfers are about. -/
theorem service (h : Faithful T md5 s) {P : TaskRef → Prop} {e : Event} (he : e ≠ .restart)
    (hreports : Reports P s.toState (LCCFileService.step (quiet md5) s.toState e)) :
  Faithful T md5 (s.mapState (fun s => LCCFileService.step (quiet md5) s e))
  := by
  apply h.mapState
  · apply h.wellFormed.step e
  · apply h.calls.step he
  · apply (Advance.step s.toState he).mono (fun _ _ => trivial)
  · intro q hq
    apply hreports.place _ (h.linked q (h.made_of_active hq)).1
  · intro c _ path content _ hdisk
    rw [hreports.disk]
    apply hdisk

/-- A transfer changes, but not what it is of, and it gets no completion handler. -/
theorem setTransfer (h : Faithful T md5 s) (r : TransferRef)
    {f : AWSS3TransferUtilityTask → AWSS3TransferUtilityTask}
    (hheld : ∀ t, ∀ handler ∈ (f t).completionHandler, handler ∈ t.completionHandler)
    (hof : ∀ t task, t.IsOf task → (f t).IsOf task) :
  Faithful T md5 (s.setTransfer r f)
  := by
  have hcell := System.cell_setTransfer r f s
  apply h.hander
  · rfl
  · rfl
  · rfl
  · exact fun _ hc => hc
  · intro r' handler hhandler
    rw [hcell] at hhandler
    split at hhandler
    · next hr =>
        subst hr
        apply hheld _ handler hhandler
    · apply hhandler
  · intro r' task hr'
    rw [hcell]
    split
    · next hr =>
        subst hr
        apply hof _ task hr'
    · apply hr'

theorem send (h : Faithful T md5 s) (r : TransferRef) (message : TransferMessage)
    {f : AWSS3TransferUtilityTask → AWSS3TransferUtilityTask}
    (hheld : ∀ t, ∀ handler ∈ (f t).completionHandler, handler ∈ t.completionHandler)
    (hof : ∀ t task, t.IsOf task → (f t).IsOf task) :
  Faithful T md5 (s.send r message f)
  := (h.setTransfer r hheld hof).hander rfl rfl rfl (fun _ hc => hc)
      (fun _ _ hhandler => hhandler) (fun _ _ hof => hof)

theorem suspend (h : Faithful T md5 s) (r : TransferRef) :
  Faithful T md5 (s.send r .suspend AWSS3TransferUtilityTask.suspend)
  := by
  apply h.send
  · intro t handler hhandler
    rw [AWSS3TransferUtilityTask.completionHandler_suspend] at hhandler
    apply hhandler
  · intro t task hof
    rw [AWSS3TransferUtilityTask.suspend]
    split
    · apply hof
    · apply hof

theorem resume (h : Faithful T md5 s) (r : TransferRef) :
  Faithful T md5 (s.send r .resume AWSS3TransferUtilityTask.resume)
  := by
  apply h.send
  · intro t handler hhandler
    rw [AWSS3TransferUtilityTask.completionHandler_resume] at hhandler
    apply hhandler
  · intro t task hof
    rw [AWSS3TransferUtilityTask.resume]
    split
    · apply hof
    · apply hof

end Faithful

end LCCFileService
