import LCCFileService.AWSS3.Serving
import Mathlib.Data.Set.Function

/-!
# Uploads

Whenever an upload finishes without error, the object of its key is to be its file.  An upload
with the MD5 of a finished task is answered by a copy of that task's object, which another
upload to the same key may have replaced since.  Where the objects that are copied still have
the MD5 of the rows they are copied for, every success of an upload is genuine.
-/

namespace LCCFileService

open LCS3Hander

/-- The contents of files and objects. -/
def System.contents (s : System) : Set Bytes :=
  { content | (∃ path, s.disk path = some content) ∨ ∃ key, s.bucket key = some content }

/-- The event starts a task, which tells the success of one that has finished before. -/
def HanderEvent.starts : HanderEvent → Bool
  | .service (.startTask _) => true
  | _ => false

/-- The uploads that finish without error by the event, as the handler answers and as the service
tells, have their file as the object. -/
def UploadsGenuine (md5 : Bytes → String) (s : System) (e : HanderEvent) : Prop :=
  (∀ a ∈ (System.step (quiet md5) s e).answers.drop s.answers.length, a.2 = none →
    Concerns .upload a.1 (System.step (quiet md5) s e) →
      Genuine ((System.step (quiet md5) s e).taskOfRequest a.1) (System.step (quiet md5) s e)) ∧
    (e.starts = false → ∀ n ∈ (System.step (quiet md5) s e).notes.drop s.notes.length, n.success →
      ((System.step (quiet md5) s e).tasks.cell n.task).type = .upload →
        Genuine ((System.step (quiet md5) s e).tasks.cell n.task) (System.step (quiet md5) s e))

instance (md5 : Bytes → String) (s : System) (e : HanderEvent) :
    Decidable (UploadsGenuine md5 s e) :=
  inferInstanceAs (Decidable ((∀ a ∈ _, _ → _ → _) ∧ (_ → ∀ n ∈ _, _ → _ → _)))

/-- The handler is called for an upload with a method for uploads, and the MD5 of the task is that
of its file. -/
def UploadsOfFiles (md5 : Bytes → String) : System → HanderEvent → Prop :=
  MakesOnly .upload (fun r s => RightDirection r s ∧ RightMd5 md5 r s)

instance (md5 : Bytes → String) (s : System) (e : HanderEvent) :
    Decidable (UploadsOfFiles md5 s e) :=
  inferInstanceAs (Decidable (MakesOnly _ _ s e))

/-- The object that is to be copied has the MD5 of the row it is found by. -/
def Continuation.SourceStands (md5 : Bytes → String) (s : System) : Continuation → Prop
  | .replicate _ source _ => ∃ content ∈ source.fileKey.bind s.bucket,
      source.md5 = some (md5 content)
  | _ => True

instance (md5 : Bytes → String) (s : System) :
    (c : Continuation) → Decidable (c.SourceStands md5 s)
  | .replicate _ source _ =>
      inferInstanceAs (Decidable (∃ content ∈ source.fileKey.bind s.bucket, _))
  | .copyURL _ _ | .copyItem _ _ | .copied _ _ _ | .start _ _ _ _ | .started _ _ | .url _ =>
      isTrue trivial

/-- What is copied for an upload has the MD5 of the row it is found by. -/
def CopiesStanding (md5 : Bytes → String) (s : System) : HanderEvent → Prop
  | .goOn i _ none => ∀ c ∈ s.waiting[i]?, mayGoOn none s c → Concerns .upload c.request s →
      c.SourceStands md5 s
  | _ => True

instance (md5 : Bytes → String) (s : System) : (e : HanderEvent) →
    Decidable (CopiesStanding md5 s e)
  | .goOn i _ none => inferInstanceAs (Decidable (∀ c ∈ s.waiting[i]?, _ → _ → _))
  | .goOn _ _ (some _) | .ends _ _ | .body _ _ | .service _ | .call _ | .request _ _
  | .progress _ _ _ | .loadHistory _ _ _ => isTrue trivial

/-- A resumption of an upload finds its own transfer, which has not ended unless the object is the
file still; and an object is copied for an upload only if it has the MD5 of the row it is found
by. -/
def UploadsRightly (md5 : Bytes → String) (s : System) (e : HanderEvent) : Prop :=
  MakesOnly .upload FindsItsOwn s e ∧ CopiesStanding md5 s e

instance (md5 : Bytes → String) (s : System) (e : HanderEvent) :
    Decidable (UploadsRightly md5 s e) :=
  inferInstanceAs (Decidable (_ ∧ _))

section

variable {md5 : Bytes → String} {s : System} {e : HanderEvent}

/-- An object with the MD5 of the row it is found by is the file it is copied for. -/
theorem Faithful.movesRightly (h : Faithful .upload md5 s) (hinjective : Set.InjOn md5 s.contents)
    (hstanding : CopiesStanding md5 s e) :
  MovesRightly .upload s e
  := by
  cases e with
  | goOn i url error =>
      cases error with
      | some error => trivial
      | none =>
          intro c hc hmay hconcerns
          have hpromises := h.promises c (List.mem_of_getElem? hc) hconcerns
          have hsource := hstanding c hc hmay hconcerns
          cases c with
          | replicate q source key =>
              obtain ⟨-, -, content, hfile, hmd5⟩ := hpromises
              obtain ⟨content', hobject, hmd5'⟩ := hsource
              obtain ⟨path, -, hpath⟩ := Option.bind_eq_some_iff.mp hfile
              obtain ⟨key', -, hkey'⟩ := Option.bind_eq_some_iff.mp hobject
              have hcontent : content' = content := by
                apply hinjective (Or.inr ⟨key', hkey'⟩) (Or.inl ⟨path, hpath⟩)
                apply Option.some.inj (hmd5'.symm.trans hmd5)
              rw [Continuation.CopiesTruly, hfile, ← hcontent]
              apply hobject
          | copyItem q source =>
              have htype := hconcerns.2.symm.trans hpromises.2
              cases htype
          | _ => trivial
  | ends r error =>
      cases error with
      | some error => trivial
      | none =>
          intro _ handler hhandler hconcerns hkind
          obtain ⟨htype, -⟩ := h.carries r handler hhandler hconcerns
          rw [hkind, hconcerns.2] at htype
          cases htype
  | _ => trivial

/-- The uploads that finish in a step are genuine successes, and the system stays faithful to
them. -/
theorem uploadsGenuine_step (h : Faithful .upload md5 s)
    (hinjective : Set.InjOn md5 s.contents) (halone : LeavesAloneRunning s e)
    (hobjects : KeepsObjects md5 s e) (hfiles : UploadsOfFiles md5 s e)
    (hrightly : UploadsRightly md5 s e) :
  Faithful .upload md5 (System.step (quiet md5) s e) ∧ UploadsGenuine md5 s e
  := by
  obtain ⟨hmakes, hstanding⟩ := hrightly
  obtain ⟨hfaithful, hanswered, htold⟩ := h.news halone hobjects
    (by
      intro r hr hcall htype
      obtain ⟨hdirection, hmd5⟩ := hfiles r hr hcall htype
      exact ⟨hdirection, hmd5, hmakes r hr hcall htype⟩)
    (h.movesRightly hinjective hstanding)
  refine ⟨hfaithful, hanswered, ?_⟩
  intro hstarts
  apply htold
  rintro task rfl
  cases hstarts

end

/-- In every run in which uploads of files with their MD5 are made one after another, so that the
object of one that is still to report its success is left alone, and the application leaves alone
running tasks and their files, every upload that finishes without error has its file as the object,
if the objects that are copied still have the MD5 they are found by. -/
theorem along_uploadsGenuine (md5 : Bytes → String) (db : TaskTable) (disk : Disk String Bytes)
    (transfers : Heap AWSS3TransferUtilityTask) (bucket : Disk String Bytes)
    (es : List HanderEvent)
    (hinjective : Run.Along (System.step (quiet md5)) (fun s _ => Set.InjOn md5 s.contents)
      (System.initial db disk transfers bucket) es)
    (halone : Run.Along (System.step (quiet md5)) LeavesAloneRunning
      (System.initial db disk transfers bucket) es)
    (hobjects : Run.Along (System.step (quiet md5)) (KeepsObjects md5)
      (System.initial db disk transfers bucket) es)
    (hfiles : Run.Along (System.step (quiet md5)) (UploadsOfFiles md5)
      (System.initial db disk transfers bucket) es)
    (hrightly : Run.Along (System.step (quiet md5)) (UploadsRightly md5)
      (System.initial db disk transfers bucket) es) :
  Run.Along (System.step (quiet md5)) (UploadsGenuine md5)
    (System.initial db disk transfers bucket) es
  := by
  have hall := Run.along_and.mpr ⟨hinjective, Run.along_and.mpr ⟨halone,
    Run.along_and.mpr ⟨hobjects, Run.along_and.mpr ⟨hfiles, hrightly⟩⟩⟩⟩
  apply Run.along_of_step (I := Faithful .upload md5) _
    (Faithful.initial .upload md5 db disk transfers bucket) hall
  rintro s e h ⟨hinjective, halone, hobjects, hfiles, hrightly⟩
  apply uploadsGenuine_step h hinjective halone hobjects hfiles hrightly

/-- A digest that spells the bytes out. -/
def spelled (content : Bytes) : String := String.ofList (content.map Char.ofUInt8)

theorem spelled_injective :
  Function.Injective spelled
  := by
  intro content content' h
  apply List.map_injective_iff.mpr _ (String.ofList_injective h)
  intro b b' hb
  apply UInt8.toUInt32_inj.mp (congrArg Char.val hb)

/-- The `n`-th task is created, for an upload of the content of the path to the key, and started. -/
def startOf (n : Nat) (key path : String) (content : Bytes) : List HanderEvent :=
  [.service (.create
      { taskId := path, fileKey := key, filePath := path, md5 := spelled content, type := .upload,
        finishCallback := some n }),
    .service (.startTask n), .service (.opStart n), .call n]

/-- An upload is transferred that is the `n`-th. -/
def transferOf (n : Nat) : List HanderEvent :=
  [.goOn 0 none none, .ends n none, .goOn 0 none none, .goOn 0 none none]

/-- A file is transferred, and one with the same content copied. -/
def copied : List HanderEvent :=
  .service (.addHander 0) :: startOf 0 "k" "/a" [1] ++ transferOf 0 ++
    startOf 1 "l" "/c" [1] ++ [.goOn 0 none none, .goOn 0 none none]

/-- A file is transferred, one with another content transferred to the same key, and then one with
the content of the first copied. -/
def copiedOver : List HanderEvent :=
  .service (.addHander 0) :: startOf 0 "k" "/a" [1] ++ transferOf 0 ++
    startOf 1 "k" "/b" [2] ++ transferOf 1 ++
    startOf 2 "l" "/c" [1] ++ [.goOn 0 none none, .goOn 0 none none]

/-- The system when the process starts, without tasks, transfers and objects. -/
def filesThere : System :=
  System.initial (Table.empty _) (fun path => if path = "/b" then some [2] else some [1])
    Heap.empty (fun _ => none)

/-- The second upload is answered by a copy. -/
theorem along_uploadsGenuine_copied :
  Run.Along (System.step (quiet spelled)) (UploadsGenuine spelled) filesThere copied ∧
    (Run.final (System.step (quiet spelled)) filesThere copied).answers
      = [(0, none), (1, none)] ∧
    (Run.final (System.step (quiet spelled)) filesThere copied).transfers.next = 1
  := by
  refine ⟨?_, by decide +kernel, by decide +kernel⟩
  apply along_uploadsGenuine
  · apply Run.along_of_forall
    intro s e
    apply spelled_injective.injOn
  · apply along_leavesAloneRunning (by decide) _
  · decide +kernel
  · decide +kernel
  · decide +kernel

/-- Where another upload has replaced the object, the upload answered by a copy of it reports a
success that is none. -/
theorem not_along_uploadsGenuine_copiedOver :
  Function.Injective spelled ∧
    Run.Along (System.step (quiet spelled)) LeavesAloneRunning filesThere copiedOver ∧
    Run.Along (System.step (quiet spelled)) (KeepsObjects spelled) filesThere copiedOver ∧
    Run.Along (System.step (quiet spelled)) (UploadsOfFiles spelled) filesThere copiedOver ∧
    ¬ Run.Along (System.step (quiet spelled)) (UploadsGenuine spelled) filesThere copiedOver
  := by
  refine ⟨spelled_injective, ?_, ?_, ?_, ?_⟩
  · apply along_leavesAloneRunning (by decide) _
  · decide +kernel
  · decide +kernel
  · decide +kernel

end LCCFileService
