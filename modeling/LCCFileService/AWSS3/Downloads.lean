import LCCFileService.AWSS3.Serving

/-!
# Downloads

Whenever a download is reported to have finished without error, its file is to be the object
of its key.  A transfer leaves a file that is at the path already, files of finished tasks
may have been edited before they are copied or found, and a resumption may find the transfer
of another task.  Where none of this happens, every success of a download is genuine.
-/

namespace LCCFileService

/-- No object changes or goes away. -/
def ObjectsStay (md5 : Bytes → String) (s : System) (e : HanderEvent) : Prop :=
  ∀ key content, s.bucket key = some content →
    (System.step (quiet md5) s e).bucket key = some content

/-- The downloads whose finish is told without error by the event have the object as their file. -/
def DownloadsGenuine (md5 : Bytes → String) (s : System) (e : HanderEvent) : Prop :=
  ∀ n ∈ (System.step (quiet md5) s e).notes.drop s.notes.length, n.success →
    ((System.step (quiet md5) s e).tasks.cell n.task).type = .download →
      Genuine ((System.step (quiet md5) s e).tasks.cell n.task) (System.step (quiet md5) s e)

instance (md5 : Bytes → String) (s : System) (e : HanderEvent) :
    Decidable (DownloadsGenuine md5 s e) :=
  inferInstanceAs (Decidable (∀ n ∈ _, _))

/-- A finished download is started again only if its file is still the object; the handler is
called for a download with one of the methods for downloads, and a resumption finds its own
transfer, which has not ended unless the file is the object still; a file is copied for a download
only if it has the bytes of the object; and a transfer that ends finds no other file at its
path. -/
def DownloadsRightly (s : System) (e : HanderEvent) : Prop :=
  (∀ task, e = .service (.startTask task) → FoundGenuine .download task s) ∧
    MakesOnly .download (fun r s => RightDirection r s ∧ FindsItsOwn r s) s e ∧
    MovesRightly .download s e

section

variable {md5 : Bytes → String} {s : System}

/-- What is told of downloads in a step is genuine, and the system stays faithful to them. -/
theorem downloadsGenuine_step (h : Faithful .download md5 s) {e : HanderEvent}
    (hobjects : ObjectsStay md5 s e) (halone : LeavesAloneRunning s e)
    (hrightly : DownloadsRightly s e) :
  Faithful .download md5 (System.step (quiet md5) s e) ∧ DownloadsGenuine md5 s e
  := by
  obtain ⟨hstarts, hmakes, hmoves⟩ := hrightly
  obtain ⟨hfaithful, -, htold⟩ := h.news halone
    (fun c _ _ key content _ => hobjects key content)
    (by
      intro r hr hcall htype
      obtain ⟨hdirection, hfinds⟩ := hmakes r hr hcall htype
      refine ⟨hdirection, ?_, hfinds⟩
      intro hmethod
      rw [RightDirection, hmethod, htype] at hdirection
      cases hdirection rfl)
    hmoves
  exact ⟨hfaithful, htold hstarts⟩

end

/-- A download that is started, transferred, and started again. -/
def download : List HanderEvent :=
  [.service (.addHander 0),
    .service (.create
      { taskId := "k", fileKey := "f", filePath := "/d", type := .download,
        finishCallback := some 1 }),
    .service (.startTask 0), .service (.opStart 0), .call 0, .goOn 0 none none, .ends 0 none,
    .service (.startTask 0)]

/-- The system when the process starts, without tasks and transfers, where every object has the
same bytes. -/
def objectsThere (disk : Disk String Bytes) : System :=
  System.initial (Table.empty _) disk Heap.empty (fun _ => some [2])

end LCCFileService
