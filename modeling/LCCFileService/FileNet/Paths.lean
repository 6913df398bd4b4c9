import LCCFileService.FileNet.Records

/-!
# Updated paths

After `lc_updatetask:filePath:` the row of the task id is to have the path, and so is the task
that `lc_getTask:` returns, until the path is updated again or the task is cancelled.  The
update writes the row only, while an operation that ends saves its task object, with the path
the object has.  So the path stays exactly if the cached task had it when the path was updated,
it is given no other one, and no task of the task id ends with another one.
-/

namespace LCCFileService

open LCFileNetService

/-- The task `lc_getTask:` returns. -/
def gotTask (taskId : String) (c : Core) : Option LCFileNetTask :=
  ((lcGetTask taskId c).cache.lookup taskId).map (lcGetTask taskId c).tasks.cell

/-- The row of the task id has the path, and so has the task `lc_getTask:` returns. -/
def PathIs (taskId : String) (filePath : Option String) (s : State) : Prop :=
  (∃ row, s.db.get taskId = some row ∧ row.filePath = filePath) ∧
    ∃ t, gotTask taskId s.toCore = some t ∧ t.filePath = filePath

/-- The path of the task id is updated, or the task is cancelled. -/
def EndsUpdate (taskId : String) (s : State) : Event → Prop
  | .updatetask key _ => key = taskId
  | e => Forgets s taskId e

/-- Every path that is updated in the run, where there is a row, is the path of the task until the
next update or the cancellation. -/
def PathsKept (E : Env) : State → List Event → Prop :=
  Run.AlongRest (step E) (fun s e es =>
    ∀ taskId filePath, e = .updatetask taskId filePath → (s.db.get taskId).isSome →
      Run.Until (step E) (PathIs taskId filePath) (EndsUpdate taskId) (step E s e) es)

/-- The event gives the cached task of the task id no other path, and ends no transfer of a task
with the task id and another path. -/
def KeepsPath (taskId : String) (filePath : Option String) (s : State) : Event → Prop
  | .set r t => s.cache.lookup taskId = some r → t.filePath = filePath
  | .finish r error =>
      r < s.calls.next ∧ (s.calls.cell r).method.Ends error →
        s.taskIdOf (s.calls.cell r).op = some taskId →
          (s.tasks.cell (s.taskOf (s.calls.cell r).op)).filePath = filePath
  | _ => True

/-- Wherever a path is updated in the run, where there is a row, the cached task has the path
already, and it is kept until the next update or the cancellation. -/
def PathsInMemory (E : Env) : State → List Event → Prop :=
  Run.AlongRest (step E) (fun s e es =>
    ∀ taskId filePath, e = .updatetask taskId filePath → (s.db.get taskId).isSome →
      (∀ r, s.cache.lookup taskId = some r → (s.tasks.cell r).filePath = filePath) ∧
        Run.AlongUntil (step E) (KeepsPath taskId filePath) (EndsUpdate taskId) (step E s e) es)

section

variable {md5 : Bytes → String} {k : String} {p : Option String} {s : State}

/-- `lc_getTask:` returns the cached task. -/
theorem gotTask_of_cached {c : Core} {r : TaskRef} (hr : c.cache.lookup k = some r) :
  gotTask k c = some (c.tasks.cell r)
  := by
  have hget : lcGetTask k c = c := by rw [lcGetTask, hr]
  rw [gotTask, hget, hr]
  rfl

/-- `lc_getTask:` of a task that is not cached returns the task of its row. -/
theorem filePath_gotTask {c : Core} {row : LCFileNetTaskRow} (hcache : c.cache.lookup k = none)
    (hrow : c.db.get k = some row) :
  ∃ t, gotTask k c = some t ∧ t.filePath = row.filePath
  := by
  obtain rfl := LCFileTaskDB.taskId_of_get hrow
  have hload : ∀ c' : Core, (c'.tasks.cell c.tasks.next).filePath = row.filePath →
      lcGetTask row.taskId c = pSetTask c.tasks.next row.taskId c' →
      ∃ t, gotTask row.taskId c = some t ∧ t.filePath = row.filePath := by
    intro c' hpath hget
    refine ⟨c'.tasks.cell c.tasks.next, ?_, hpath⟩
    rw [gotTask, hget, pSetTask, Dictionary.lookup_insert, if_pos rfl]
    rfl
  have hobject : ((c.allocTask row.object).tasks.cell c.tasks.next).filePath = row.filePath := by
    rw [Core.allocTask, Heap.cell_alloc_next]
    rfl
  have hinterrupt : (((c.allocTask row.object).setStatus c.tasks.next .interrupt).tasks.cell
      c.tasks.next).filePath = row.filePath := by
    rw [Core.cell_setStatus, if_pos rfl]
    apply hobject
  have hfound : LCFileTaskDB.lcGetTaskByTaskId row.taskId c.db = some row := hrow
  cases hstatus : row.status with
  | create =>
      apply hload _ hinterrupt
      simp only [lcGetTask, hcache, hfound, hstatus]
  | progress =>
      apply hload _ hinterrupt
      simp only [lcGetTask, hcache, hfound, hstatus]
  | _ =>
      apply hload _ hobject
      simp only [lcGetTask, hcache, hfound, hstatus]

/-- The path of a task is the one that is on record. -/
theorem pathIs_iff (hwf : WellFormed s.toCore) :
  PathIs k p s ↔ OnRecord (fun t => t.filePath = p) k s.toCore
  := by
  constructor
  · rintro ⟨hrow, t, ht, hpath⟩
    refine ⟨hrow, ?_⟩
    intro r hr
    rw [gotTask_of_cached hr] at ht
    obtain rfl := Option.some.inj ht
    exact ⟨hwf.allocated k r hr, hpath⟩
  · rintro ⟨⟨row, hrow, hpath⟩, hcached⟩
    refine ⟨⟨row, hrow, hpath⟩, ?_⟩
    cases hcache : s.cache.lookup k with
    | some r => exact ⟨_, gotTask_of_cached hcache, (hcached r hcache).2⟩
    | none =>
        rw [← hpath]
        apply filePath_gotTask hcache hrow

theorem lasting_filePath (p : Option String) :
  Lasting (fun t => t.filePath = p)
  := fun _ _ _ => Iff.rfl

/-- A step that neither updates nor cancels keeps the path exactly if it keeps it in memory. -/
theorem pathIs_step_iff (hwf : WellFormed s.toCore) (h : PathIs k p s) {e : Event}
    (he : ¬ EndsUpdate k s e) :
  PathIs k p (step (quiet md5) s e) ↔ KeepsPath k p s e
  := by
  have hrecorded := (pathIs_iff hwf).mp h
  have hforgets : ¬ Forgets s k e := by
    intro hforgets
    cases e with
    | updatetask key filePath => apply hforgets
    | _ => apply he hforgets
  rw [pathIs_iff (hwf.step e), hrecorded.step_iff (lasting_filePath p) hforgets]
  cases e with
  | updatetask key filePath =>
      refine iff_of_true ?_ trivial
      intro hkey
      apply absurd hkey he
  | progress r =>
      refine iff_of_true ?_ trivial
      rintro - - row hrow
      obtain ⟨row', hrow', hpath⟩ := hrecorded.row
      rw [hrow'] at hrow
      obtain rfl := Option.some.inj hrow
      apply hpath
  | _ => rfl

/-- An update gives the task the path exactly if the cached task has it. -/
theorem pathIs_updatetask_iff (hwf : WellFormed s.toCore) (hrow : (s.db.get k).isSome) :
  PathIs k p (step (quiet md5) s (.updatetask k p)) ↔
    ∀ r, s.cache.lookup k = some r → (s.tasks.cell r).filePath = p
  := by
  rw [pathIs_iff (hwf.step _)]
  constructor
  · intro h r hr
    apply (h.cached r hr).2
  · intro hcached
    obtain ⟨row, hrow⟩ := Option.isSome_iff_exists.mp hrow
    refine ⟨⟨{ row with filePath := p }, ?_, rfl⟩, ?_⟩
    · rw [step, State.toCore_mapCore, lcUpdatetask, Core.setDb, LCFileTaskDB.lcUpdateTaskFilePath,
        LCFileTaskDB.get_updateTask, if_pos rfl, hrow]
      rfl
    · intro r hr
      exact ⟨hwf.allocated k r hr, hcached r hr⟩

end

/-- In a run every updated path is the path of the task until the next update or the cancellation,
exactly if wherever a path is updated the cached task has it already and keeps it, and no task with
the task id and another path ends. -/
theorem pathsKept_iff (md5 : Bytes → String) (db : TaskTable) (disk : Disk String Bytes)
    (es : List Event) :
  PathsKept (quiet md5) (State.initial db disk) es ↔
    PathsInMemory (quiet md5) (State.initial db disk) es
  := by
  apply Run.alongRest_congr _ (@WellFormed.throughout md5 db disk es)
  rintro s e es hwf
  have huntil : ∀ k p, (s.db.get k).isSome →
      (Run.Until (step (quiet md5)) (PathIs k p) (EndsUpdate k)
          (step (quiet md5) s (.updatetask k p)) es ↔
        (∀ r, s.cache.lookup k = some r → (s.tasks.cell r).filePath = p) ∧
          Run.AlongUntil (step (quiet md5)) (KeepsPath k p) (EndsUpdate k)
            (step (quiet md5) s (.updatetask k p)) es) := by
    intro k p hrow
    rw [← @pathIs_updatetask_iff md5 _ _ _ hwf hrow]
    apply Run.until_iff_alongUntil (A := fun s => WellFormed s.toCore)
    · intro s e hwf
      apply hwf.step e
    · intro s e hwf h he
      apply pathIs_step_iff hwf h he
    · apply hwf.step _
  constructor
  · rintro h k p rfl hrow
    apply (huntil k p hrow).mp (h k p rfl hrow)
  · rintro h k p rfl hrow
    apply (huntil k p hrow).mpr (h k p rfl hrow)

/-- A download is under way. -/
def startedDownload : List Event :=
  [.create { taskId := "k", type := .download, filePath := "/a" }, .addHander 0, .startTask 0,
    .opStart 0, .returns 0]

/-- When the download ends after its path was updated, its row has the old path again. -/
theorem not_pathsKept_startedDownload :
  ¬ PathsKept (quiet (fun _ => "")) (State.initial ∅ (fun _ => none))
      (startedDownload ++ [.updatetask "k" "/b", .finish 0 none]) ∧
    ((Run.final (step (quiet (fun _ => ""))) (State.initial ∅ (fun _ => none))
      (startedDownload ++ [.updatetask "k" "/b", .finish 0 none])).db.get "k").map (·.filePath)
        = some (some "/a")
  := by
  have hold : ((Run.final (step (quiet (fun _ => ""))) (State.initial ∅ (fun _ => none))
      (startedDownload ++ [.updatetask "k" "/b", .finish 0 none])).db.get "k").map (·.filePath)
        = some (some "/a") := by
    decide +kernel
  refine ⟨?_, hold⟩
  intro h
  have huntil := h.2.2.2.2.2.1 "k" "/b" rfl (by decide +kernel)
  obtain ⟨⟨row, hrow, hpath⟩, -⟩ := huntil.2 id
  have hnew : ((Run.final (step (quiet (fun _ => ""))) (State.initial ∅ (fun _ => none))
      (startedDownload ++ [.updatetask "k" "/b", .finish 0 none])).db.get "k").map (·.filePath)
        = some row.filePath := congrArg (Option.map (·.filePath)) hrow
  rw [hold, hpath] at hnew
  apply absurd hnew (by decide)

end LCCFileService
