import Mathlib.Logic.Relation
import LCCFileService.FileNet.Operations

/-!
# Changes of the core

What the service does of its own accord, apart from starting operations and answering the
handler, is made up of a few changes of the core: tasks are made, read from their rows and
saved as new, get an MD5 or a status, and are forgotten; operations are added and cancelled;
handler methods without blocks are called.  What every such change keeps is kept by every
event of this kind.
-/

namespace LCCFileService

open LCFileNetService LCFileNetOperation

/-- A change of the core by which only task ids with `F` are forgotten. -/
inductive Change (F : String → Prop) (c : Core) : Core → Prop
  | allocTask (t : LCFileNetTask) : Change F c (c.allocTask t)
  | setMd5 (r : TaskRef) (md5 : Option String) :
      Change F c (c.setTask r (fun t => { t with md5 }))
  | setStatus (r : TaskRef) (status : LCFileNetTaskStatus) : Change F c (c.setStatus r status)
  | recordStatus (r : TaskRef) (status : LCFileNetTaskStatus) : Change F c (c.recordStatus r status)
  /-- The task of a row is put into the cache. -/
  | load {row : LCFileNetTaskRow} (hrow : c.db.get row.taskId = some row)
      (hcache : c.cache.lookup row.taskId = none) :
      Change F c (pSetTask c.tasks.next row.taskId (c.allocTask row.object))
  /-- A task without a row is put into the cache, and saved. -/
  | save {r : TaskRef} {k : String} (hid : (c.tasks.cell r).taskId = some k)
      (hrow : c.db.get k = none) :
      Change F c ((pSetTask r k c).setDb (LCFileTaskDB.lcSaveTask (c.tasks.cell r)))
  | addOperation (r : TaskRef) (k : String) : Change F c (addOperation r k c)
  | forget {k : String} (hk : F k) : Change F c (c.forget k)
  | superCancel (o : OpRef) : Change F c (superCancel o c)
  | call (o : OpRef) {method : HanderMethod} (hmethod : method.transfers = false) :
      Change F c (c.call o method)
  | await (t : Tail) : Change F c (c.await t)
  | dropTail (i : Nat) : Change F c (c.dropTail i)
  | other (hander : Option HanderRef) (deallocated : List HanderRef) (disk : Disk String Bytes) :
      Change F c { c with hander, deallocated, disk }

/-- Changes in a row. -/
abbrev Changes (F : String → Prop) : Core → Core → Prop := Relation.ReflTransGen (Change F)

namespace Changes

variable {F : String → Prop} {md5 : Bytes → String}

/-! ### Starting and resuming -/

theorem pAddTask (task : TaskRef) (c : Core) :
  Changes F c (LCFileNetService.pAddTask task c)
  := by
  obtain heq | ⟨taskId, -, -, heq⟩ := pAddTask_cases task c
  · rw [heq]
  · rw [heq]
    exact .single (.addOperation task taskId)

theorem pSetMd5 (task : TaskRef) (c : Core) :
  Changes F c (LCFileNetService.pSetMd5 md5 task c)
  := by
  rw [LCFileNetService.pSetMd5]
  split
  · split
    · exact .single (.setMd5 task _)
    · exact .refl
  · exact .refl

/-- The task of a row is put into the cache. -/
theorem load {c : Core} {taskId : String} {row : LCFileNetTaskRow}
    (hrow : LCFileTaskDB.lcGetTaskByTaskId taskId c.db = some row)
    (hcache : c.cache.lookup taskId = none) :
  Changes F c (pSetTask c.tasks.next row.taskId (c.allocTask row.object))
  := by
  obtain rfl := LCFileTaskDB.taskId_of_get hrow
  exact .single (.load hrow hcache)

theorem startChecked {task : TaskRef} {taskId : String} {c : Core}
    (hid : (c.tasks.cell task).taskId = some taskId) :
  Changes F c (c.startChecked task taskId)
  := by
  rw [Core.startChecked]
  cases hcache : c.cache.lookup taskId with
  | some oldTask =>
      dsimp only
      split
      · apply pAddTask oldTask c
      · exact .refl
  | none =>
      cases hrow : LCFileTaskDB.lcGetTaskByTaskId taskId c.db with
      | none =>
          have hsave := Change.save (F := F) hid hrow
          apply (Relation.ReflTransGen.single hsave).trans (pAddTask task _)
      | some row =>
          have hload := load (F := F) hrow hcache
          have hinterrupt := hload.tail (.setStatus c.tasks.next .interrupt)
          dsimp only
          split
          · apply hload
          · apply hinterrupt.trans (pAddTask _ _)
          · apply hinterrupt.trans (pAddTask _ _)
          · apply hload.trans (pAddTask _ _)

theorem startTask (task : TaskRef) (c : Core) :
  Changes F c (c.startTask md5 task)
  := by
  rw [Core.startTask]
  split
  · next taskId hid =>
      split
      · have hid' : ((LCFileNetService.pSetMd5 md5 task c).tasks.cell task).taskId
            = some taskId := by
          rw [taskId_pSetMd5]
          apply hid
        apply (pSetMd5 task c).trans (startChecked hid')
      · exact .refl
  · exact .refl

theorem lcResumTask (taskId : String) (s : State) :
  Changes F s.toCore (LCFileNetService.lcResumTask (quiet md5) taskId s).toCore
  := by
  rw [LCFileNetService.lcResumTask]
  split
  · split
    · exact .refl
    · rw [toCore_lcStartTask]
      apply startTask _ _
  · exact .refl

theorem lcGetTask (taskId : String) (c : Core) :
  Changes F c (LCFileNetService.lcGetTask taskId c)
  := by
  rw [LCFileNetService.lcGetTask]
  split
  · exact .refl
  · next hcache =>
      split
      · next row hrow =>
          have hload := load (F := F) hrow hcache
          have hinterrupt := hload.tail (.setStatus c.tasks.next .interrupt)
          dsimp only
          split
          · apply hinterrupt
          · apply hinterrupt
          · apply hload
      · exact .refl

/-! ### Cancelling and pausing -/

theorem stopTail (status : LCFileNetTaskStatus) (o : OpRef) (s : State) :
  Changes F s.toCore (LCFileNetOperation.stopTail (quiet md5) status o s).toCore
  := by
  rw [toCore_stopTail]
  exact .tail (.single (.recordStatus _ status)) (.superCancel o)

theorem stop {method : HanderMethod} (hmethod : method.transfers = false)
    (status : LCFileNetTaskStatus) (o : OpRef) (t : Tail) {rest : State → State}
    (hrest : ∀ s : State, Changes F s.toCore (rest s).toCore) (s : State) :
  Changes F s.toCore (LCFileNetOperation.stop (quiet md5) method status o t rest s).toCore
  := by
  rw [LCFileNetOperation.stop]
  split
  · exact .tail (.single (.call o hmethod)) (.await t)
  · split
    · apply (stopTail status o s).trans (hrest _)
    · exact .trans (.single (.superCancel o)) (hrest (s.mapCore (LCFileNetOperation.superCancel o)))

theorem cancelTail {taskId : String} (hF : F taskId) (cacheTask : TaskRef) (s : State) :
  Changes F s.toCore (LCFileNetService.cancelTail (quiet md5) taskId cacheTask s).toCore
  := by
  rw [toCore_cancelTail]
  exact .tail (.single (.setStatus cacheTask .canceled)) (.forget hF)

theorem lcCancelTask {taskId : String} {s : State}
    (hF : ∀ r, s.cache.lookup taskId = some r → (s.tasks.cell r).status ≠ .finish → F taskId) :
  Changes F s.toCore (LCFileNetService.lcCancelTask (quiet md5) taskId s).toCore
  := by
  rw [LCFileNetService.lcCancelTask]
  split
  · exact .refl
  · next r hr =>
      split
      · exact .refl
      · next hstatus =>
          split
          · apply stop rfl _ _ _ (cancelTail (hF r hr hstatus) r) s
          · apply cancelTail (hF r hr hstatus) r s

theorem pauseTail (cacheTask : TaskRef) (s : State) :
  Changes F s.toCore (LCFileNetService.pauseTail (quiet md5) cacheTask s).toCore
  := by
  rw [toCore_pauseTail]
  exact .single (.setStatus cacheTask .pause)

theorem pauseTasks (taskIds : List String) (s : State) :
  Changes F s.toCore (LCFileNetService.pauseTasks (quiet md5) taskIds s).toCore
  := by
  induction taskIds generalizing s with
  | nil => exact .refl
  | cons taskId taskIds ih =>
      have hrest : ∀ (cacheTask : TaskRef) (s : State), Changes F s.toCore
          (LCFileNetService.pauseTasks (quiet md5) taskIds
            (LCFileNetService.pauseTail (quiet md5) cacheTask s)).toCore :=
        fun cacheTask s => (pauseTail cacheTask s).trans (ih _)
      rw [LCFileNetService.pauseTasks]
      split
      · apply ih s
      · split
        · apply ih s
        · split
          · apply stop rfl _ _ _ (hrest _) s
          · apply hrest _ s

theorem runTail {t : Tail} (hF : ∀ o k r, t = .lcCancelTask o k r → F k) (s : State) :
  Changes F s.toCore (LCFileNetService.runTail (quiet md5) t s).toCore
  := by
  cases t with
  | main o =>
      rw [LCFileNetService.runTail, toCore_pNotifyStart]
      exact .single (.recordStatus _ _)
  | cancel o => apply stopTail .canceled o s
  | pause o => apply stopTail .pause o s
  | lcCancelTask o k r => apply (stopTail .canceled o s).trans (cancelTail (hF o k r rfl) r _)
  | lcPauseTask o r taskIds =>
      apply ((stopTail .pause o s).trans (pauseTail r _)).trans (pauseTasks taskIds _)

end Changes

/-! ### Steps -/

/-- The event cancels the task of the task id, which has not finished, or ends its cancellation. -/
def Forgets (s : State) (k : String) : Event → Prop
  | .cancelTask taskId =>
      taskId = k ∧ ∃ r, s.cache.lookup k = some r ∧ (s.tasks.cell r).status ≠ .finish
  | .returns i => ∃ o r, s.pending[i]? = some (.lcCancelTask o k r)
  | _ => False

/-- The task id whose cancellation a tail ends. -/
def Tail.cancels : Tail → Option String
  | .lcCancelTask _ taskId _ => some taskId
  | _ => none

instance (s : State) (k : String) : (e : Event) → Decidable (Forgets s k e)
  | .cancelTask taskId =>
      decidable_of_iff (taskId = k ∧ ∃ r ∈ s.cache.lookup k, (s.tasks.cell r).status ≠ .finish)
        (by simp only [Option.mem_def, Forgets])
  | .returns i =>
      decidable_of_iff (∃ t ∈ s.pending[i]?, t.cancels = some k) (by
        constructor
        · rintro ⟨t, ht, hk⟩
          cases t with
          | lcCancelTask o taskId r =>
              obtain rfl := Option.some.inj hk
              exact ⟨o, r, ht⟩
          | _ => cases hk
        · rintro ⟨o, r, ht⟩
          exact ⟨_, ht, rfl⟩)
  | .create _ | .set _ _ | .startTask _ | .resumTask _ | .pauseTask _ | .pauseAllTask
  | .getTask _ | .updatetask _ _ | .opStart _ | .opCancel _ | .opPause _ | .progress _
  | .finish _ _ | .addHander _ | .deallocHander _ | .addObserver _ | .find _ | .edit _ _
  | .restart => isFalse id

/-- The event is one of the service alone: no operation is started, nothing is answered, and nobody
sets the properties of a task or the path in a row. -/
def Event.ofService : Event → Bool
  | .set _ _ | .updatetask _ _ | .opStart _ | .progress _ | .finish _ _ | .restart => false
  | _ => true

/-- An event of the service makes changes of the core. -/
theorem Changes.step {md5 : Bytes → String} (s : State) {e : Event} (he : e.ofService) :
  Changes (fun k => Forgets s k e) s.toCore (LCCFileService.step (quiet md5) s e).toCore
  := by
  cases e with
  | create t => exact .single (.allocTask t)
  | startTask task =>
      rw [LCCFileService.step]
      split
      · rw [toCore_lcStartTask]
        apply startTask task _
      · exact .refl
  | resumTask taskId => apply lcResumTask taskId s
  | pauseTask taskId => apply pauseTasks [taskId] s
  | pauseAllTask => apply pauseTasks _ s
  | cancelTask taskId => apply lcCancelTask (fun r hr hstatus => ⟨rfl, r, hr, hstatus⟩)
  | getTask taskId => apply lcGetTask taskId _
  | opCancel o =>
      rw [LCCFileService.step]
      split
      · apply stop rfl _ _ _ (fun _ => .refl) s
      · exact .refl
  | opPause o =>
      rw [LCCFileService.step]
      split
      · apply stop rfl _ _ _ (fun _ => .refl) s
      · exact .refl
  | returns i =>
      rw [LCCFileService.step]
      split
      · next t ht =>
          apply Relation.ReflTransGen.head (.dropTail i)
          apply runTail _ (s.mapCore (·.dropTail i))
          rintro o k r rfl
          exact ⟨o, r, ht⟩
      · exact .refl
  | addHander h => exact .single (.other (some h) s.deallocated s.disk)
  | deallocHander h => exact .single (.other s.hander (h :: s.deallocated) s.disk)
  | addObserver o => exact .refl
  | find finder => exact .refl
  | edit path content => exact .single (.other s.hander s.deallocated _)
  | set task t => cases he
  | updatetask key filePath => cases he
  | opStart o => cases he
  | progress r => cases he
  | finish r error => cases he
  | restart => cases he

end LCCFileService
