import LCCFileService.AWSS3.Copies
import LCCFileService.AWSS3.Entries
import LCCFileService.AWSS3.Handling
import LCCFileService.FileNet.ProgressNotes
import LCCFileService.FileNet.Records

/-!
# Delivered progress

A delivery is a call of the progress block of a request of the service by which the progress of
its task is told.  The handler makes it when a transfer reports, with the larger of the reported
size and the size the task has, and the reported total; and when it has taken over both sizes of
a finished task by a copy.  What was delivered for a task id stays on record, so that nothing
smaller is delivered later, if no write lowers the size of the task on record.
-/

namespace LCCFileService

open LCFileNetService LCS3Hander

/-! ### Deliveries -/

/-- The request whose progress block is called during the event, and the system then. -/
def progressing (E : Env) (s : System) : HanderEvent → Option (RequestRef × System)
  | .progress transfer completed total =>
      if (s.transfers.cell transfer).live then
        (s.transfers.cell transfer).completionHandler.map (fun handler =>
          (handler.request, s.setTaskOf handler.request (fun task => { task with
            finishedSize := max completed task.finishedSize
            totalSize := total })))
      else none
  | e =>
      (copyStep E s e).bind (fun c =>
        if c.reports = some none then some (c.request, c.after) else none)

/-- The task whose progress is told when the progress block of the request is called, and its
properties then. -/
def told (q : RequestRef) (s : System) : Option (TaskRef × LCFileNetTask) :=
  (s.requests.cell q).call.bind (fun r =>
    let task := s.taskOf (s.calls.cell r).op
    if r < s.calls.next ∧ (s.calls.cell r).method.transfers ∧ ¬ Silent (s.tasks.cell task) then
      some (task, s.tasks.cell task)
    else none)

/-- The task whose progress is told during the event, and its properties then. -/
def delivery (E : Env) (s : System) (e : HanderEvent) : Option (TaskRef × LCFileNetTask) :=
  (progressing E s e).bind (fun p => told p.1 p.2)

/-- A transfer that reports has completed no less than nothing and no more than its total. -/
def HanderEvent.ReportsFit : HanderEvent → Prop
  | .progress _ completed total => 0 ≤ completed ∧ completed ≤ total
  | _ => True

instance : (e : HanderEvent) → Decidable e.ReportsFit
  | .progress _ completed total => inferInstanceAs (Decidable (0 ≤ completed ∧ completed ≤ total))
  | .service _ | .call _ | .request _ _ | .goOn _ _ _ | .ends _ _ | .body _ _
  | .loadHistory _ _ _ => isTrue trivial

/-- The task of the task id is being cancelled by the event. -/
def Cancels (s : System) (k : String) : HanderEvent → Prop
  | .service e => Forgets s.toState k e
  | _ => False

/-- The sizes that were delivered last, after another delivery. -/
def recordDelivery (delivery : Option (TaskRef × LCFileNetTask)) (last : String → Option Int)
    (k : String) : Option Int :=
  match delivery with
  | some (_, t) => if t.taskId = some k then some t.finishedSize else last k
  | none => last k

instance (s : System) (k : String) : (e : HanderEvent) → Decidable (Cancels s k e)
  | .service e => inferInstanceAs (Decidable (Forgets s.toState k e))
  | .call _ | .request _ _ | .goOn _ _ _ | .ends _ _ | .body _ _ | .progress _ _ _
  | .loadHistory _ _ _ => isFalse id

/-- The sizes that were delivered last by task ids, with the event; a cancelled task has none. -/
def lastDelivered (E : Env) (s : System) (e : HanderEvent) (last : String → Option Int)
    (k : String) : Option Int :=
  if Cancels s k e then none else recordDelivery (delivery E s e) last k

/-- What is delivered is sound: the task is in progress, its sizes fit, and it has finished no less
than was delivered last for its task id. -/
def SoundDelivery (last : String → Option Int) (t : LCFileNetTask) : Prop :=
  t.status = .progress ∧ 0 < t.finishedSize ∧ t.finishedSize ≤ t.totalSize ∧
    ∀ k ∈ t.taskId, ∀ size ∈ last k, size ≤ t.finishedSize

instance (last : String → Option Int) (t : LCFileNetTask) : Decidable (SoundDelivery last t) :=
  inferInstanceAs (Decidable (_ ∧ _))

/-- Progress is told during the event only by the delivery, which is sound. -/
def DeliversSoundly (E : Env) (p : System × (String → Option Int)) (e : HanderEvent) : Prop :=
  (∀ n ∈ (System.step E p.1 e).notes.drop p.1.notes.length, n.kind = .progress →
    ∃ d ∈ delivery E p.1 e, d.1 = n.task) ∧
  ∀ d ∈ delivery E p.1 e, SoundDelivery p.2 d.2

instance (E : Env) (p : System × (String → Option Int)) (e : HanderEvent) :
    Decidable (DeliversSoundly E p e) :=
  inferInstanceAs (Decidable (_ ∧ _))

/-! ### Keeping progress -/

/-- The task of the request is the cached one of its task id. -/
def IsCached (q : RequestRef) (s : System) : Prop :=
  ∀ k ∈ s.idOf q, s.cache.lookup k = some (s.requests.cell q).task

instance (q : RequestRef) (s : System) : Decidable (IsCached q s) :=
  inferInstanceAs (Decidable (∀ k ∈ s.idOf q, _))

/-- The task is the cached one of its task id, or has finished no less than the row. -/
def UpToDate (task : TaskRef) (c : Core) : Prop :=
  ∀ k ∈ (c.tasks.cell task).taskId, c.cache.lookup k = some task ∨
    ∀ row ∈ c.db.get k, row.finishedSize ≤ (c.tasks.cell task).finishedSize

instance (task : TaskRef) (c : Core) : Decidable (UpToDate task c) :=
  inferInstanceAs (Decidable (∀ k ∈ (c.tasks.cell task).taskId, _ ∨ _))

/-- The request is not one of the service, or its task is up to date. -/
def Current (q : RequestRef) (s : System) : Prop :=
  (s.requests.cell q).call.isSome → UpToDate (s.requests.cell q).task s.toCore

instance (q : RequestRef) (s : System) : Decidable (Current q s) :=
  inferInstanceAs (Decidable (_ → _))

/-- The progress of the task of the request is told if it gets the sizes. -/
def Tells (q : RequestRef) (finishedSize totalSize : Int) (s : System) : Prop :=
  (s.requests.cell q).call.isSome ∧ ¬ Silent { s.taskOfRequest q with finishedSize, totalSize }

instance (q : RequestRef) (finishedSize totalSize : Int) (s : System) :
    Decidable (Tells q finishedSize totalSize s) :=
  inferInstanceAs (Decidable (_ ∧ _))

/-- The finished task whose sizes are taken over has finished no less than the task of the request;
and if this is told, its sizes fit, and the task of the request is the cached one. -/
def TakesOver (q : RequestRef) (source : LCFileNetTaskRow) (error : Option NSError) (s : System) :
    Prop :=
  (s.taskOfRequest q).finishedSize ≤ source.finishedSize ∧
    (error = none → Tells q source.finishedSize source.totalSize s →
      IsCached q s ∧ 0 < source.finishedSize ∧ source.finishedSize ≤ source.totalSize)

instance (q : RequestRef) (source : LCFileNetTaskRow) (error : Option NSError) (s : System) :
    Decidable (TakesOver q source error s) :=
  inferInstanceAs (Decidable (_ ∧ _))

/-- What goes on may take over the sizes of a finished task. -/
def SizesFit (error : Option NSError) (s : System) : Continuation → Prop
  | .copyURL q source => TakesOver q source error s
  | .copied q source copyError => TakesOver q source copyError s
  | _ => True

instance (error : Option NSError) (s : System) : (c : Continuation) →
    Decidable (SizesFit error s c)
  | .copyURL q source => inferInstanceAs (Decidable (TakesOver q source error s))
  | .copied q source copyError => inferInstanceAs (Decidable (TakesOver q source copyError s))
  | .replicate _ _ _ | .copyItem _ _ | .start _ _ _ _ | .started _ _ | .url _ => isTrue trivial

/-- The event lowers no size on record: a task is not set to less, a request of the service that is
worked for has an up-to-date task, the sizes of a finished task are taken over only if they fit, and
a transfer of which progress is told has no smaller total than its task has finished. -/
def KeepsProgress (s : System) : HanderEvent → Prop
  | .service (.set r t) =>
      ∀ k ∈ (s.tasks.cell r).taskId, s.cache.lookup k = some r →
        (s.tasks.cell r).finishedSize ≤ t.finishedSize
  | .call r => uncalled r s → UpToDate (s.taskOf (s.calls.cell r).op) s.toCore
  | .goOn i _ error =>
      ∀ c ∈ s.waiting[i]?, mayGoOn error s c → c.answers →
        Current c.request s ∧ SizesFit error s c
  | .ends r error =>
      mayEnd r error s → ∀ handler ∈ (s.transfers.cell r).completionHandler,
        Current handler.request s
  | .progress r completed total =>
      (s.transfers.cell r).live → ∀ handler ∈ (s.transfers.cell r).completionHandler,
        Current handler.request s ∧
          (Tells handler.request (max completed (s.taskOfRequest handler.request).finishedSize)
            total s → IsCached handler.request s ∧
              (s.taskOfRequest handler.request).finishedSize ≤ total)
  | _ => True

instance (s : System) : (e : HanderEvent) → Decidable (KeepsProgress s e)
  | .service (.set r _) =>
      inferInstanceAs (Decidable (∀ k ∈ (s.tasks.cell r).taskId, s.cache.lookup k = some r → _))
  | .call r => inferInstanceAs (Decidable (uncalled r s → UpToDate _ _))
  | .goOn i _ error =>
      inferInstanceAs (Decidable (∀ c ∈ s.waiting[i]?, mayGoOn error s c → c.answers → _ ∧ _))
  | .ends r error =>
      inferInstanceAs (Decidable (mayEnd r error s →
        ∀ handler ∈ (s.transfers.cell r).completionHandler, Current handler.request s))
  | .progress r _ _ =>
      inferInstanceAs (Decidable ((s.transfers.cell r).live →
        ∀ handler ∈ (s.transfers.cell r).completionHandler, _ ∧ (_ → _ ∧ _)))
  | .service (.create _) | .service (.startTask _) | .service (.resumTask _)
  | .service (.pauseTask _) | .service .pauseAllTask | .service (.cancelTask _)
  | .service (.getTask _) | .service (.updatetask _ _) | .service (.opStart _)
  | .service (.opCancel _) | .service (.opPause _) | .service (.returns _)
  | .service (.progress _) | .service (.finish _ _) | .service (.addHander _)
  | .service (.deallocHander _) | .service (.addObserver _) | .service (.find _)
  | .service (.edit _ _) | .service .restart | .request _ _ | .body _ _
  | .loadHistory _ _ _ => isTrue trivial

/-! ### What stays on record -/

/-- The task has finished no less. -/
def AtLeast (size : Int) (t : LCFileNetTaskFields) : Prop := size ≤ t.finishedSize

theorem lasting_atLeast (size : Int) :
  Lasting (AtLeast size)
  := fun _ _ _ => Iff.rfl

/-- A progress block of a cached task puts the size of the task on record. -/
theorem OnRecord.progressBlock_of_cached {md5 : Bytes → String} {s : State} {o : OpRef} {k : String}
    (hwf : WellFormed s.toCore) (hcached : s.cache.lookup k = some (s.taskOf o)) :
  OnRecord (AtLeast (s.tasks.cell (s.taskOf o)).finishedSize) k
    (LCFileNetOperation.progressBlock (quiet md5) o s).toCore
  := by
  obtain ⟨hid, hrow⟩ := hwf.cached k _ hcached
  obtain ⟨row, hrow⟩ := Option.isSome_iff_exists.mp hrow
  obtain ⟨ops, hcore⟩ := @progressBlock_quiet md5 o s
  rw [hcore]
  constructor
  · have hget := get_recordSizes hid k
    rw [if_pos rfl, hrow] at hget
    exact ⟨_, hget, Int.le_refl _⟩
  · intro r hr
    have heq : some r = some (s.taskOf o) := hr.symm.trans hcached
    obtain rfl := Option.some.inj heq
    exact ⟨hwf.allocated k _ hcached, Int.le_refl _⟩

/-- The sizes that were delivered last are on record, and the requests of the service are for the
tasks of their calls. -/
structure Remembers (last : String → Option Int) (s : System) : Prop where
  wellFormed : WellFormed s.toCore
  calls : CallsOwned s.toCore
  linked : ∀ q, ∀ r ∈ (s.requests.cell q).call, r < s.calls.next ∧
    ((s.calls.cell r).method.transfers →
      s.taskOf (s.calls.cell r).op = (s.requests.cell q).task)
  unmade : ∀ q, s.requests.next ≤ q → (s.requests.cell q).call = none
  record : ∀ k, ∀ size ∈ last k, OnRecord (AtLeast size) k s.toCore

/-- And the task of the request, if it is one of the service, has finished no less. -/
structure Ready (last : String → Option Int) (q : RequestRef) (s : System) : Prop extends
    Remembers last s where
  covered : (s.requests.cell q).call.isSome → ∀ k ∈ s.idOf q, ∀ size ∈ last k,
    size ≤ (s.taskOfRequest q).finishedSize

namespace Remembers

variable {md5 : Bytes → String} {last : String → Option Int} {q : RequestRef} {s s' : System}

/-- The service goes on, and what was delivered stays on record. -/
theorem driven (h : Remembers last s) (hdriven : Driven (quiet md5) s.toState s'.toState)
    (hrequests : s'.requests = s.requests) {last' : String → Option Int}
    (hrecord : ∀ k, ∀ size ∈ last' k, OnRecord (AtLeast size) k s'.toCore) :
  Remembers last' s'
  := by
  have hadvance := hdriven.advance
  constructor
  · apply hdriven.wellFormed h.wellFormed
  · apply hdriven.callsOwned h.calls
  · intro q r hr
    rw [hrequests] at hr ⊢
    obtain ⟨hlt, htask⟩ := h.linked q r hr
    refine ⟨Nat.lt_of_lt_of_le hlt hadvance.calls_le, ?_⟩
    rw [hadvance.method r hlt, hadvance.op r hlt]
    intro hmethod
    rw [hadvance.task _ (h.calls r hlt hmethod)]
    apply htask hmethod
  · rw [hrequests]
    apply h.unmade
  · apply hrecord

/-- Only the handler changes, and makes no request. -/
theorem hander (h : Remembers last s) (hstate : s'.toState = s.toState)
    (hrequests : s'.requests = s.requests) :
  Remembers last s'
  := by
  have hdriven : Driven (quiet fun _ => "") s.toState s'.toState := by
    rw [hstate]
    apply Driven.refl
  apply h.driven hdriven hrequests
  rw [hstate]
  apply h.record

/-- A request of the service with an up-to-date task is ready. -/
theorem ready (h : Remembers last s) (hq : Current q s) :
  Ready last q s
  := by
  refine ⟨h, ?_⟩
  intro hcall k hk size hsize
  have hrecord := h.record k size hsize
  rcases hq hcall k hk with hcached | hrow
  · apply (hrecord.cached _ hcached).2
  · obtain ⟨row, hget, hle⟩ := hrecord.row
    apply Int.le_trans hle (hrow row hget)

/-- A request that has not been made is ready. -/
theorem ready_next (h : Remembers last s) :
  Ready last s.requests.next s
  := by
  refine ⟨h, ?_⟩
  rw [h.unmade _ (Nat.le_refl _)]
  rintro ⟨⟩

end Remembers

/-- A finish block keeps the task ids and the sizes of tasks. -/
theorem cell_step_finish {md5 : Bytes → String} (s : State) (r : CallRef) (error : Option NSError)
    (task : TaskRef) :
  ((LCCFileService.step (quiet md5) s (.finish r error)).tasks.cell task).taskId
      = (s.tasks.cell task).taskId ∧
    ((LCCFileService.step (quiet md5) s (.finish r error)).tasks.cell task).finishedSize
      = (s.tasks.cell task).finishedSize
  := by
  rw [LCCFileService.step]
  split
  · by_cases hends : (s.calls.cell r).method.Ends error
    · rw [LCFileNetOperation.finishBlock_ends hends, LCFileNetOperation.cell_ended]
      split
      · next heq =>
          rw [heq]
          exact ⟨rfl, rfl⟩
      · exact ⟨rfl, rfl⟩
    · obtain ⟨ops, calls, hcore, -⟩ := LCFileNetOperation.finishBlock_not_ends hends
        (quiet md5) (s.calls.cell r).op (s.mapCore (·.answer r))
      rw [hcore]
      exact ⟨rfl, rfl⟩
  · exact ⟨rfl, rfl⟩

namespace Ready

variable {md5 : Bytes → String} {last : String → Option Int} {q : RequestRef} {s s' : System}

/-- The task of the request keeps its task id, and its size is not lowered. -/
theorem congr (h : Ready last q s) (hremembers : Remembers last s')
    (hrequests : s'.requests = s.requests) (hid : s'.idOf q = s.idOf q)
    (hsize : (s.taskOfRequest q).finishedSize ≤ (s'.taskOfRequest q).finishedSize) :
  Ready last q s'
  := by
  refine ⟨hremembers, ?_⟩
  rw [hrequests, hid]
  intro hcall k hk size hlast
  apply Int.le_trans (h.covered hcall k hk size hlast) hsize

/-- Properties of the task are set, but its size is not lowered. -/
theorem setTaskOf (h : Ready last q s) {f : LCFileNetTask → LCFileNetTask}
    (hf : (s.taskOfRequest q).finishedSize ≤ (f (s.taskOfRequest q)).finishedSize) :
  Ready last q (s.setTaskOf q f)
  := by
  have hdriven : Driven (quiet fun _ => "") s.toState (s.setTaskOf q f).toState :=
    Driven.refl.setTask _ f
  have hremembers : Remembers last (s.setTaskOf q f) := by
    apply h.toRemembers.driven hdriven rfl
    intro k size hsize
    apply (h.record k size hsize).setTask
    intro hle
    apply Int.le_trans hle hf
  apply h.congr hremembers rfl
  · rw [System.idOf, System.idOf, taskOfRequest_setTaskOf]
  · rw [taskOfRequest_setTaskOf]
    apply hf

/-- Where no task changes, and no row and nothing cached. -/
theorem same (h : Ready last q s) (hdriven : Driven (quiet md5) s.toState s'.toState)
    (hrequests : s'.requests = s.requests) (htasks : s'.tasks = s.tasks) (hdb : s'.db = s.db)
    (hcache : s'.cache = s.cache) :
  Ready last q s'
  := by
  have htask : s'.taskOfRequest q = s.taskOfRequest q := by
    rw [System.taskOfRequest, System.taskOfRequest, hrequests, htasks]
  have hremembers : Remembers last s' := by
    apply h.toRemembers.driven hdriven hrequests
    intro k size hsize
    apply (h.record k size hsize).of_eq htasks hdb hcache
  apply h.congr hremembers hrequests
  · rw [System.idOf, System.idOf, htask]
  · apply Int.le_of_eq (congrArg (fun t => t.finishedSize) htask.symm)

/-- The service gets the answer of the request. -/
theorem answered (h : Ready last q s) {r : CallRef} (hr : r ∈ (s.requests.cell q).call)
    (error : Option NSError) :
  Ready last q (s.mapState (fun s => LCCFileService.step (quiet md5) s (.finish r error)))
  := by
  have hdriven : Driven (quiet md5) s.toState
      (LCCFileService.step (quiet md5) s.toState (.finish r error)) :=
    Driven.refl.step (by rintro ⟨⟩)
  obtain ⟨hid, hsize⟩ := @cell_step_finish md5 s.toState r error (s.requests.cell q).task
  obtain ⟨hlt, hlinked⟩ := h.linked q r hr
  have hremembers : Remembers last
      (s.mapState (fun s => LCCFileService.step (quiet md5) s (.finish r error))) := by
    have hrequests : (s.mapState (fun s =>
        LCCFileService.step (quiet md5) s (.finish r error))).requests = s.requests := rfl
    apply h.toRemembers.driven hdriven hrequests
    intro k size hsize
    apply ((h.record k size hsize).step_iff (lasting_atLeast size) id).mpr
    rintro ⟨-, hends⟩ hid
    rw [Core.taskIdOf, hlinked hends.1] at hid
    rw [hlinked hends.1]
    apply h.covered (Option.isSome_of_mem hr) k hid size hsize
  apply h.congr hremembers rfl hid (Int.le_of_eq hsize.symm)

/-- The call of the finish block of the request. -/
theorem finishCallback (h : Ready last q s) (error : Option NSError) :
  Ready last q (LCS3Hander.finishCallback (quiet md5) q error s)
  := by
  have hdriven : Driven (quiet md5) s.toState s.toState := Driven.refl
  have hanswers : Ready last q
      (s.mapHander (fun h => { h with answers := h.answers ++ [(q, error)] })) :=
    h.same hdriven rfl rfl rfl rfl
  rw [LCS3Hander.finishCallback]
  split
  · next r hr => exact hanswers.answered hr error
  · apply hanswers

/-- What the handler does for the request, apart from reporting progress and writing sizes. -/
theorem handles (h : Ready last q s) (hhandles : Handles (quiet md5) q s s') :
  Ready last q s'
  := by
  induction hhandles with
  | refl => apply h
  | finish _ error ih => apply ih.finishCallback error
  | setTask _ hf ih => apply ih.setTaskOf (Int.le_of_eq (hf _).symm)
  | @disk s' _ f ih =>
      have hdriven : Driven (quiet md5) s'.toState (s'.mapDisk f).toState := Driven.refl.disk f
      apply ih.same hdriven rfl rfl rfl rfl
  | @raise s' _ ih =>
      have hdriven : Driven (quiet md5) s'.toState s'.toState.raise := Driven.refl.raise
      exact ih.same hdriven rfl rfl rfl rfl
  | @hander s' f _ hf ih =>
      have hdriven : Driven (quiet md5) s'.toState s'.toState := Driven.refl
      exact ih.same hdriven hf rfl rfl rfl

end Ready

/-! ### Calls of the progress block -/

section

variable {md5 : Bytes → String} {last : String → Option Int} {q : RequestRef} {s s' : System}

/-- What was delivered last is what is delivered now, or was delivered last before. -/
theorem mem_recordDelivery {delivery : Option (TaskRef × LCFileNetTask)} {k : String} {size : Int}
    (h : size ∈ recordDelivery delivery last k) :
  (∃ d ∈ delivery, d.2.taskId = some k ∧ size = d.2.finishedSize) ∨ size ∈ last k
  := by
  rw [recordDelivery.eq_def] at h
  split at h
  · next task t =>
      split at h
      · next hid => exact Or.inl ⟨_, rfl, hid, (Option.some.inj h).symm⟩
      · apply Or.inr h
  · apply Or.inr h

/-- It is the task of the request whose progress is told, because of a call of the service. -/
theorem Remembers.told_eq (h : Remembers last s) {d : TaskRef × LCFileNetTask}
    (hd : d ∈ told q s) :
  d = ((s.requests.cell q).task, s.taskOfRequest q) ∧ ¬ Silent (s.taskOfRequest q) ∧
    ∃ r ∈ (s.requests.cell q).call, r < s.calls.next ∧ (s.calls.cell r).method.transfers ∧
      s.taskOf (s.calls.cell r).op = (s.requests.cell q).task
  := by
  obtain ⟨r, hr, hd⟩ := Option.bind_eq_some_iff.mp hd
  dsimp only at hd
  split at hd
  · next hguard =>
      obtain ⟨hlt, hmethod, hloud⟩ := hguard
      have htask := (h.linked q r hr).2 hmethod
      rw [htask] at hd hloud
      exact ⟨(Option.some.inj hd).symm, hloud, r, hr, hlt, hmethod, htask⟩
  · cases hd

/-- The call of the progress block tells progress of the task that is told, and nothing else. -/
theorem notes_progressCallback (q : RequestRef) (s : System) :
  ∃ ns, (progressCallback (quiet md5) q s).notes = s.notes ++ ns ∧
    ∀ n ∈ ns, ∃ d ∈ told q s, d.1 = n.task
  := by
  have hnothing : ∃ ns, s.notes = s.notes ++ ns ∧ ∀ n ∈ ns, ∃ d ∈ told q s, d.1 = n.task :=
    ⟨[], by simp⟩
  rw [progressCallback]
  split
  · next r hr =>
      rw [System.toState_mapState, LCCFileService.step]
      split
      · next hguard =>
          refine ⟨_, (notes_progressBlock _ _).1, ?_⟩
          intro n hn
          split at hn
          · cases hn
          · next hloud =>
              have htold : told q s = some (s.taskOf (s.calls.cell r).op,
                  s.tasks.cell (s.taskOf (s.calls.cell r).op)) := by
                rw [told, hr, Option.bind_some]
                apply if_pos ⟨hguard.1, hguard.2, hloud⟩
              exact ⟨_, htold, (Reports.mem_notesOf hn).2.1.symm⟩
      · apply hnothing
  · apply hnothing

/-- A progress block changes no task. -/
theorem tasks_step_progress (s : State) (r : CallRef) :
  (LCCFileService.step (quiet md5) s (.progress r)).tasks = s.tasks
  := by
  rw [LCCFileService.step]
  split
  · obtain ⟨ops, hcore⟩ := @progressBlock_quiet md5 (s.calls.cell r).op s
    rw [hcore]
    rfl
  · rfl

/-- After the call of the progress block what it tells is on record. -/
theorem Ready.progressCallback (h : Ready last q s) (hcached : ∀ d ∈ told q s, IsCached q s) :
  Ready (recordDelivery (told q s) last) q (LCS3Hander.progressCallback (quiet md5) q s)
  := by
  rw [LCS3Hander.progressCallback]
  split
  · next r hr =>
      have hdriven : Driven (quiet md5) s.toState
          (LCCFileService.step (quiet md5) s.toState (.progress r)) :=
        Driven.refl.step (by rintro ⟨⟩)
      have htasks := @tasks_step_progress md5 s.toState r
      obtain ⟨hlt, hlinked⟩ := h.linked q r hr
      constructor
      · have hrequests : (s.mapState (fun s =>
            LCCFileService.step (quiet md5) s (.progress r))).requests = s.requests := rfl
        apply h.toRemembers.driven hdriven hrequests
        intro k size hsize
        rcases mem_recordDelivery hsize with ⟨d, hd, hid, rfl⟩ | hsize
        · obtain ⟨rfl, -, r', hr', hlt, hmethod, htask⟩ := h.told_eq hd
          obtain rfl : r' = r := Option.mem_unique hr' hr
          have hlookup := hcached _ hd k hid
          rw [← htask] at hlookup
          have hrecord := @OnRecord.progressBlock_of_cached md5 _ _ _ h.wellFormed hlookup
          rw [htask] at hrecord
          rw [System.toState_mapState, LCCFileService.step, if_pos ⟨hlt, hmethod⟩]
          apply hrecord
        · apply ((h.record k size hsize).step_iff (lasting_atLeast size) id).mpr
          rintro ⟨-, hmethod⟩ hid row hrow
          rw [Core.taskIdOf, hlinked hmethod] at hid
          have hcovered := h.covered (Option.isSome_of_mem hr) k hid size hsize
          rw [hlinked hmethod]
          apply hcovered
      · intro hcall k hk size hsize
        have htask : (s.mapState (fun s =>
            LCCFileService.step (quiet md5) s (.progress r))).taskOfRequest q =
              s.taskOfRequest q := by
          rw [System.taskOfRequest, System.toState_mapState, htasks]
          rfl
        rw [System.idOf, htask] at hk
        rw [htask]
        rcases mem_recordDelivery hsize with ⟨d, hd, -, rfl⟩ | hsize
        · apply Int.le_of_eq (congrArg (fun d => d.2.finishedSize) (h.told_eq hd).1)
        · apply h.covered hcall k hk size hsize
  · next hcall =>
      have htold : told q s = none := by
        rw [told, hcall]
        rfl
      rw [htold]
      apply h

/-! ### Events without progress -/

/-- A request for the task of its call, if it is one of the service, is entered. -/
theorem Remembers.addRequest (h : Remembers last s) {r : Request}
    (hr : ∀ c ∈ r.call, c < s.calls.next ∧
      ((s.calls.cell c).method.transfers → s.taskOf (s.calls.cell c).op = r.task)) :
  Remembers last (s.addRequest r)
  := by
  have hcell : ∀ q, (s.addRequest r).requests.cell q =
      if q = s.requests.next then r else s.requests.cell q :=
    fun q => Heap.cell_alloc r s.requests q
  refine ⟨h.wellFormed, h.calls, ?_, ?_, h.record⟩
  · intro q c hc
    rw [hcell] at hc ⊢
    split
    · next hq =>
        rw [if_pos hq] at hc
        apply hr c hc
    · next hq =>
        rw [if_neg hq] at hc
        apply h.linked q c hc
  · intro q hq
    have hlt : s.requests.next < q := hq
    rw [hcell, if_neg (Nat.ne_of_gt hlt)]
    apply h.unmade q (Nat.le_of_lt hlt)

theorem Handles.loadTransfers (h : Handles (quiet md5) q s s') (transfers : List TransferRef) :
  Handles (quiet md5) q s (LCS3Hander.loadTransfers transfers s')
  := by
  induction transfers generalizing s' with
  | nil => apply h
  | cons obj transfers ih => apply ih ((h.send obj _ _).hander rfl)

/-- Progress is reported by what goes on if a copy succeeds. -/
theorem progressing_goOn {E : Env} {i : Nat} {c : Continuation} {url : Option String}
    {error : Option NSError} (hc : s.waiting[i]? = some c) (hmay : mayGoOn error s c) :
  progressing E s (.goOn i url error)
    = (copyGoesOn E url error c (s.dropWaiting i)).bind (fun c =>
        if c.reports = some none then some (c.request, c.after) else none)
  := by
  rw [progressing, copyStep, hc, Option.bind_some, if_pos hmay]
  rintro transfer completed total ⟨⟩

/-- What goes on without progress is what the handler does for a request that is ready. -/
theorem Remembers.handled_goOn (h : Remembers last s) {i : Nat} {c : Continuation}
    {url : Option String} {error : Option NSError} (hc : s.waiting[i]? = some c)
    (hmay : mayGoOn error s c)
    (he : c.answers → Current c.request s ∧ SizesFit error s c)
    (hnone : progressing (quiet md5) s (.goOn i url error) = none) :
  ∃ q s', Ready last q s' ∧ s'.notes = s.notes ∧
    Handles (quiet md5) q s' (goOn (quiet md5) url error c (s.dropWaiting i))
  := by
  have hdrop : Remembers last (s.dropWaiting i) := h.hander rfl rfl
  have hready : c.answers → Ready last c.request (s.dropWaiting i) :=
    fun hanswers => hdrop.ready (he hanswers).1
  rw [progressing_goOn hc hmay] at hnone
  by_cases hcopyURL : ∃ q source, c = .copyURL q source
  · obtain ⟨q, source, rfl⟩ := hcopyURL
    cases error with
    | none => cases hnone
    | some error =>
        have hset := (hready rfl).setTaskOf (f := fun task => { task with
          url
          finishedSize := source.finishedSize
          totalSize := source.totalSize }) (he rfl).2.1
        exact ⟨q, _, hset, rfl, Handles.of_replies (Replies.copyCallback error _)⟩
  · by_cases hcopied : ∃ q source error, c = .copied q source error
    · obtain ⟨q, source, copyError, rfl⟩ := hcopied
      cases copyError with
      | none => cases hnone
      | some copyError =>
          have hset := (hready rfl).setTaskOf (f := fun task => { task with
            finishedSize := source.finishedSize
            totalSize := source.totalSize }) (he rfl).2.1
          exact ⟨q, _, hset, rfl, Handles.of_replies (Replies.copyCallback copyError _)⟩
    · cases hanswers : c.answers with
      | true =>
          refine ⟨c.request, _, hready hanswers, rfl, Handles.goOn ?_ ?_ url error _⟩
          · intro q source heq
            apply hcopyURL ⟨q, source, heq⟩
          · intro q source error heq
            apply hcopied ⟨q, source, error, heq⟩
      | false =>
          cases c with
          | started q r => exact ⟨_, _, hdrop.ready_next, rfl, Handles.refl.setObject q r⟩
          | _ => cases hanswers

/-- A request that is made is ready if its task is up to date, where it is one of the service. -/
theorem Remembers.handled_request (h : Remembers last s) {r : Request}
    (hr : ∀ c ∈ r.call, c < s.calls.next ∧
      ((s.calls.cell c).method.transfers → s.taskOf (s.calls.cell c).op = r.task))
    (hcurrent : r.call.isSome → UpToDate r.task s.toCore) :
  ∃ q s', Ready last q s' ∧ s'.notes = s.notes ∧
    Handles (quiet md5) q s' (LCS3Hander.request (quiet md5) r s)
  := by
  have hcell : (s.addRequest r).requests.cell s.requests.next = r := Heap.cell_alloc_next _ _
  refine ⟨s.requests.next, s.addRequest r, (h.addRequest hr).ready ?_, rfl, Handles.callMethod _⟩
  rw [Current, hcell]
  apply hcurrent

/-- What happens without progress is what the handler does for a request that is ready. -/
theorem Remembers.handled (h : Remembers last s) {e : HanderEvent} (he : KeepsProgress s e)
    (hservice : ∀ e', e ≠ .service e') (hnone : progressing (quiet md5) s e = none) :
  ∃ q s', Ready last q s' ∧ s'.notes = s.notes ∧
    Handles (quiet md5) q s' (System.step (quiet md5) s e)
  := by
  have hnothing : ∃ q s', Ready last q s' ∧ s'.notes = s.notes ∧ Handles (quiet md5) q s' s :=
    ⟨s.requests.next, s, h.ready_next, rfl, Handles.refl⟩
  cases e with
  | service e => apply absurd rfl (hservice e)
  | call r =>
      rw [System.step]
      split
      · next huncalled =>
          have hlt : r < s.calls.next := by
            rw [uncalled, Bool.and_eq_true, decide_eq_true_eq] at huncalled
            apply huncalled.1
          apply h.handled_request
          · rintro c ⟨⟩
            exact ⟨hlt, fun _ => rfl⟩
          · exact fun _ => he huncalled
      · apply hnothing
  | request method task =>
      rw [System.step]
      split
      · apply h.handled_request
        · rintro c ⟨⟩
        · rintro ⟨⟩
      · apply hnothing
  | goOn i url error =>
      rw [System.step]
      split
      · next c hc =>
          split
          · next hmay => exact h.handled_goOn hc hmay (he c hc hmay) hnone
          · apply hnothing
      · apply hnothing
  | ends r error =>
      rw [System.step]
      split
      · next hmay =>
          cases hhandler : (s.transfers.cell r).completionHandler with
          | none =>
              refine ⟨_, s, h.ready_next, rfl, Handles.endTransfer error ?_⟩
              rw [hhandler]
              rintro handler ⟨⟩
          | some handler =>
              refine ⟨handler.request, s, h.ready (he hmay handler hhandler), rfl,
                Handles.endTransfer error ?_⟩
              rw [hhandler]
              rintro handler' ⟨⟩
              rfl
      · apply hnothing
  | body r body =>
      rw [System.step]
      split
      · exact ⟨s.requests.next, s, h.ready_next, rfl, Handles.refl.disk _⟩
      · apply hnothing
  | progress r completed total =>
      rw [System.step]
      split
      · next hlive =>
          rw [progressing, if_pos hlive, Option.map_eq_none_iff] at hnone
          rw [progressBlock, hnone]
          apply hnothing
      · apply hnothing
  | loadHistory uploadTask multiPartUploadTask downloadTask =>
      rw [System.step]
      split
      · refine ⟨s.requests.next, s, h.ready_next, rfl, ?_⟩
        apply Handles.loadTransfers
        apply Handles.loadTransfers
        apply Handles.loadTransfers
        apply Handles.refl
      · apply hnothing

/-! ### Events with progress -/

/-- What is told of the request is of a cached task, and its sizes fit. -/
def TellsSoundly (q : RequestRef) (s : System) : Prop :=
  ∀ d ∈ told q s, IsCached q s ∧ 0 < d.2.finishedSize ∧ d.2.finishedSize ≤ d.2.totalSize

/-- The task of the request gets sizes that fit if they are told. -/
theorem Ready.tellsSoundly (h : Ready last q s) {f : LCFileNetTask → LCFileNetTask}
    (hf : (s.taskOfRequest q).finishedSize ≤ (f (s.taskOfRequest q)).finishedSize)
    (htells : (s.requests.cell q).call.isSome → ¬ Silent (f (s.taskOfRequest q)) →
      IsCached q s ∧ 0 < (f (s.taskOfRequest q)).finishedSize ∧
        (f (s.taskOfRequest q)).finishedSize ≤ (f (s.taskOfRequest q)).totalSize) :
  TellsSoundly q (s.setTaskOf q f)
  := by
  intro d hd
  obtain ⟨rfl, hloud, r, hr, -⟩ := (h.setTaskOf hf).told_eq hd
  rw [taskOfRequest_setTaskOf] at hloud ⊢
  obtain ⟨hcached, hsizes⟩ := htells (Option.isSome_of_mem hr) hloud
  refine ⟨?_, hsizes⟩
  rw [IsCached, System.idOf, taskOfRequest_setTaskOf]
  apply hcached

/-- The first step of a copy does not succeed. -/
theorem reports_copyBegins (source : LCFileNetTaskRow) :
  (copyBegins q source s).reports ≠ some none
  := by
  rw [copyBegins]
  split
  · rintro ⟨⟩
  · split
    · rintro ⟨⟩
    · rintro ⟨⟩
  · rintro ⟨⟩

/-- A copy succeeds during an event by which something goes on. -/
theorem copyStep_succeeds {E : Env} {e : HanderEvent} {c : CopyStep} (h : copyStep E s e = some c)
    (hreports : c.reports = some none) :
  ∃ i url error w, e = .goOn i url error ∧ s.waiting[i]? = some w ∧ mayGoOn error s w ∧
    copyGoesOn E url error w (s.dropWaiting i) = some c
  := by
  obtain ⟨r, source, -, -, rfl⟩ | hgoesOn := copyStep_cases h
  · apply absurd hreports (reports_copyBegins source)
  · apply hgoesOn

/-- Where a copy has succeeded the request is ready, and what is told is sound. -/
theorem tellsSoundly_of_copied {w : Continuation} {url : Option String}
    {error : Option NSError} (hready : w.answers → Ready last w.request s)
    (hfit : w.answers → SizesFit error s w) {c : CopyStep}
    (hc : copyGoesOn (quiet md5) url error w s = some c) (hreports : c.reports = some none) :
  Ready last c.request c.after ∧ c.after.notes = s.notes ∧ TellsSoundly c.request c.after
  := by
  cases w with
  | replicate q source key =>
      cases error with
      | none => obtain rfl := Option.some.inj hc; cases hreports
      | some error => obtain rfl := Option.some.inj hc; cases hreports
  | copyURL q source =>
      obtain rfl := Option.some.inj hc
      obtain rfl := Option.some.inj hreports
      obtain ⟨hle, htells⟩ := hfit rfl
      have hready' := hready rfl
      refine ⟨hready'.setTaskOf hle, rfl, hready'.tellsSoundly hle ?_⟩
      exact fun hcall hloud => htells rfl ⟨hcall, hloud⟩
  | copyItem q source => obtain rfl := Option.some.inj hc; cases hreports
  | copied q source copyError =>
      obtain rfl := Option.some.inj hc
      obtain rfl := Option.some.inj hreports
      obtain ⟨hle, htells⟩ := hfit rfl
      have hmd5 : Ready last q (setMd5 (quiet md5) q s) :=
        (hready rfl).setTaskOf (Int.le_refl _)
      have htask : (setMd5 (quiet md5) q s).taskOfRequest q = _ := taskOfRequest_setTaskOf _
      have hle' : ((setMd5 (quiet md5) q s).taskOfRequest q).finishedSize ≤
          source.finishedSize := by
        rw [htask]
        apply hle
      refine ⟨hmd5.setTaskOf hle', rfl, hmd5.tellsSoundly hle' ?_⟩
      intro hcall hloud
      rw [htask] at hloud
      rw [IsCached, System.idOf, htask]
      apply htells rfl ⟨hcall, hloud⟩
  | start q kind key path => cases hc
  | started q r => cases hc
  | url q => cases hc

/-- A copy that succeeds reports progress soundly for a request that is ready. -/
theorem Remembers.reporting_copy (h : Remembers last s) {e : HanderEvent} (he : KeepsProgress s e)
    {c : CopyStep} (hc : copyStep (quiet md5) s e = some c) (hreports : c.reports = some none) :
  Ready last c.request c.after ∧ c.after.notes = s.notes ∧ TellsSoundly c.request c.after ∧
    System.step (quiet md5) s e =
      finishCallback (quiet md5) c.request none
        (progressCallback (quiet md5) c.request c.after)
  := by
  have hresult := step_eq_result hc
  rw [CopyStep.result, hreports] at hresult
  obtain ⟨i, url, error, w, rfl, hw, hmay, hgoesOn⟩ := copyStep_succeeds hc hreports
  have hdrop : Remembers last (s.dropWaiting i) := h.hander rfl rfl
  obtain ⟨hready, hnotes, htells⟩ := tellsSoundly_of_copied
    (fun hanswers => hdrop.ready (he w hw hmay hanswers).1)
    (fun hanswers => (he w hw hmay hanswers).2) hgoesOn hreports
  exact ⟨hready, hnotes, htells, hresult⟩

/-- What a live transfer reports is told soundly of a request that is ready. -/
theorem Remembers.reporting_progress (h : Remembers last s) {r : TransferRef}
    {completed total : Int} (he : KeepsProgress s (.progress r completed total))
    (hfit : (HanderEvent.progress r completed total).ReportsFit)
    (hlive : (s.transfers.cell r).live) {handler : CompletionHandler}
    (hhandler : (s.transfers.cell r).completionHandler = some handler) :
  Ready last handler.request (s.setTaskOf handler.request (fun task => { task with
      finishedSize := max completed task.finishedSize
      totalSize := total })) ∧
    TellsSoundly handler.request (s.setTaskOf handler.request (fun task => { task with
      finishedSize := max completed task.finishedSize
      totalSize := total }))
  := by
  obtain ⟨hcurrent, htells⟩ := he hlive handler hhandler
  obtain ⟨hcompleted, htotal⟩ := hfit
  have hready := h.ready hcurrent
  have hmax : (s.taskOfRequest handler.request).finishedSize ≤
      max completed (s.taskOfRequest handler.request).finishedSize := Int.le_max_right _ _
  refine ⟨hready.setTaskOf hmax, hready.tellsSoundly hmax ?_⟩
  intro hcall hloud
  obtain ⟨hcached, hle⟩ := htells ⟨hcall, hloud⟩
  refine ⟨hcached, ?_, Int.max_le.mpr ⟨htotal, hle⟩⟩
  -- what is told is not zero
  have hne : max completed (s.taskOfRequest handler.request).finishedSize ≠ 0 :=
    fun hzero => hloud (Or.inr (Or.inr hzero))
  have hnonneg := Int.le_trans hcompleted (Int.le_max_left completed
    (s.taskOfRequest handler.request).finishedSize)
  apply Int.lt_iff_le_and_ne.mpr ⟨hnonneg, hne.symm⟩

/-- Where progress is reported the request is ready, and what is told is sound; at most the finish
block is called after that. -/
theorem Remembers.reporting (h : Remembers last s) {e : HanderEvent} (he : KeepsProgress s e)
    (hfit : e.ReportsFit) (hsome : progressing (quiet md5) s e = some (q, s')) :
  Ready last q s' ∧ s'.notes = s.notes ∧ TellsSoundly q s' ∧
    Handles (quiet md5) q (progressCallback (quiet md5) q s') (System.step (quiet md5) s e)
  := by
  have hcopy : (copyStep (quiet md5) s e).bind (fun c =>
      if c.reports = some none then some (c.request, c.after) else none) = some (q, s') →
      Ready last q s' ∧ s'.notes = s.notes ∧ TellsSoundly q s' ∧
        Handles (quiet md5) q (progressCallback (quiet md5) q s')
          (System.step (quiet md5) s e) := by
    intro hbind
    obtain ⟨c, hc, hif⟩ := Option.bind_eq_some_iff.mp hbind
    split at hif
    · next hreports =>
        obtain ⟨rfl, rfl⟩ := Prod.mk.inj (Option.some.inj hif)
        obtain ⟨hready, hnotes, htells, hstep⟩ := h.reporting_copy he hc hreports
        refine ⟨hready, hnotes, htells, ?_⟩
        rw [hstep]
        apply Handles.refl.finish none
    · cases hif
  cases e with
  | progress r completed total =>
      rw [progressing] at hsome
      split at hsome
      · next hlive =>
          obtain ⟨handler, hhandler, heq⟩ := Option.map_eq_some_iff.mp hsome
          obtain ⟨rfl, rfl⟩ := Prod.mk.inj heq
          obtain ⟨hready, htells⟩ := h.reporting_progress he hfit hlive hhandler
          refine ⟨hready, rfl, htells, ?_⟩
          rw [System.step, if_pos hlive, LCS3Hander.progressBlock, hhandler]
          apply Handles.refl
      · cases hsome
  | service e => apply hcopy hsome
  | call r => apply hcopy hsome
  | request method task => apply hcopy hsome
  | goOn i url error => apply hcopy hsome
  | ends r error => apply hcopy hsome
  | body r body => apply hcopy hsome
  | loadHistory uploadTask multiPartUploadTask downloadTask => apply hcopy hsome

/-! ### Steps -/

/-- What the handler does for a request, apart from reporting progress, tells no progress. -/
theorem Handles.hushed (h : Handles (quiet md5) q s s') :
  Hushed s.toState s'.toState
  := by
  induction h with
  | refl => apply Hushed.refl _
  | finish _ error ih =>
      rw [finishCallback]
      split
      · next r _ =>
          apply ih.trans
          apply Hushed.step
          · rintro r ⟨⟩
          · rintro ⟨⟩
      · apply ih
  | setTask _ hf ih => apply ih.trans (Hushed.mapCore _ _)
  | disk _ f ih => apply ih.trans (Hushed.mapCore _ _)
  | raise _ ih => apply ih.trans (Hushed.of_eq rfl)
  | hander _ hf ih => apply ih

/-- An event of the service delivers nothing, and forgets what was delivered for a task id only if
it cancels the task. -/
theorem mem_lastDelivered_service {E : Env} {e : Event} {k : String} {size : Int}
    (h : size ∈ lastDelivered E s (.service e) last k) :
  ¬ Forgets s.toState k e ∧ size ∈ last k
  := by
  rw [lastDelivered] at h
  split at h
  · cases h
  · next hforgets => exact ⟨hforgets, h⟩

/-- What an event of the service writes on record lowers no size. -/
theorem Remembers.keepsRecord (h : Remembers last s) {e : Event}
    (he : KeepsProgress s (.service e)) (hprogress : ∀ r, e ≠ .progress r)
    (hfinish : ∀ r error, e ≠ .finish r error) {k : String} {size : Int} (hsize : size ∈ last k) :
  KeepsRecord (AtLeast size) k s.toState e
  := by
  have hrecord := h.record k size hsize
  cases e with
  | set r t =>
      intro hr
      apply Int.le_trans (hrecord.cached r hr).2 (he k (h.wellFormed.cached k r hr).1 hr)
  | updatetask key filePath =>
      intro _ row hrow
      obtain ⟨row', hrow', hle⟩ := hrecord.row
      obtain rfl := Option.mem_unique hrow hrow'
      apply hle
  | progress r => apply absurd rfl (hprogress r)
  | finish r error => apply absurd rfl (hfinish r error)
  | _ => trivial

/-- When the process starts, what was delivered is on record if the rows have it. -/
theorem Remembers.initial {db : TaskTable}
    (hrows : ∀ k, ∀ size ∈ last k, ∃ row, db.get k = some row ∧ size ≤ row.finishedSize)
    (disk : Disk String Bytes) (transfers : Heap AWSS3TransferUtilityTask)
    (bucket : Disk String Bytes) :
  Remembers last (System.initial db disk transfers bucket)
  := by
  constructor
  · apply WellFormed.initial db disk
  · rintro r ⟨⟩
  · rintro q r ⟨⟩
  · exact fun _ _ => rfl
  · intro k size hsize
    refine ⟨hrows k size hsize, ?_⟩
    rintro r ⟨⟩

/-- An event of the service. -/
theorem Remembers.service (h : Remembers last s) {e : Event}
    (he : KeepsProgress s (.service e)) :
  Remembers (lastDelivered (quiet md5) s (.service e) last)
      (System.step (quiet md5) s (.service e)) ∧
    ∀ n ∈ (System.step (quiet md5) s (.service e)).notes.drop s.notes.length, n.kind ≠ .progress
  := by
  have hnothing : Remembers (lastDelivered (quiet md5) s (.service e) last) s ∧
      ∀ n ∈ s.notes.drop s.notes.length, n.kind ≠ .progress := by
    have hdriven : Driven (quiet md5) s.toState s.toState := Driven.refl
    refine ⟨h.driven hdriven rfl ?_, (Hushed.refl s.toState).new⟩
    intro k size hsize
    apply h.record k size (mem_lastDelivered_service hsize).2
  have hstep : (∀ r, e ≠ .progress r) → (∀ r error, e ≠ .finish r error) → e ≠ .restart →
      Remembers (lastDelivered (quiet md5) s (.service e) last)
        (s.mapState (fun s => LCCFileService.step (quiet md5) s e)) ∧
      ∀ n ∈ (LCCFileService.step (quiet md5) s.toState e).notes.drop s.notes.length,
        n.kind ≠ .progress := by
    intro hprogress hfinish hrestart
    have hdriven : Driven (quiet md5) s.toState (LCCFileService.step (quiet md5) s.toState e) :=
      Driven.refl.step hrestart
    have hrequests : (s.mapState (fun s => LCCFileService.step (quiet md5) s e)).requests
        = s.requests := rfl
    refine ⟨h.driven hdriven hrequests ?_, (Hushed.step _ hprogress hrestart).new⟩
    intro k size hsize
    obtain ⟨hforgets, hsize⟩ := mem_lastDelivered_service hsize
    apply ((h.record k size hsize).step_iff (lasting_atLeast size) hforgets).mpr
    apply h.keepsRecord he hprogress hfinish hsize
  cases e with
  | restart =>
      refine ⟨Remembers.initial ?_ _ _ _, ?_⟩
      · intro k size hsize
        apply (h.record k size (mem_lastDelivered_service hsize).2).row
      · rw [System.step]
        intro n hn
        rw [show (System.initial s.db s.disk s.transfers s.bucket).notes = [] from rfl,
          List.drop_nil] at hn
        cases hn
  | progress r => apply hnothing
  | finish r error => apply hnothing
  | _ => apply hstep (by rintro r ⟨⟩) (by rintro r error ⟨⟩) (by rintro ⟨⟩)

/-- What was delivered stays on record, and what is delivered is sound. -/
theorem Remembers.step (h : Remembers last s) {e : HanderEvent} (he : KeepsProgress s e)
    (hfit : e.ReportsFit) :
  Remembers (lastDelivered (quiet md5) s e last) (System.step (quiet md5) s e) ∧
    DeliversSoundly (quiet md5) (s, last) e
  := by
  by_cases hservice : ∃ e', e = .service e'
  · obtain ⟨e', rfl⟩ := hservice
    obtain ⟨hremembers, hkind⟩ := h.service he
    refine ⟨hremembers, ?_, ?_⟩
    · intro n hn hprogress
      apply absurd hprogress (hkind n hn)
    · rintro d ⟨⟩
  have hlast : lastDelivered (quiet md5) s e last
      = recordDelivery (delivery (quiet md5) s e) last := by
    funext k
    apply if_neg
    intro hcancels
    cases e with
    | service e' => apply hservice ⟨e', rfl⟩
    | _ => apply hcancels
  rw [hlast, delivery, DeliversSoundly, delivery]
  cases hprogressing : progressing (quiet md5) s e with
  | none =>
      obtain ⟨q, s', hready, hnotes, hhandles⟩ :=
        h.handled he (fun e' heq => hservice ⟨e', heq⟩) hprogressing
      obtain ⟨ns, hns, hkind⟩ := hhandles.hushed
      refine ⟨(hready.handles hhandles).toRemembers, ?_, ?_⟩
      · intro n hn hprogress
        rw [hns, hnotes, List.drop_left] at hn
        apply absurd hprogress (hkind n hn)
      · rintro d ⟨⟩
  | some p =>
      obtain ⟨q, s'⟩ := p
      obtain ⟨hready, hnotes, htells, hhandles⟩ := h.reporting he hfit hprogressing
      obtain ⟨ns, hns, htold⟩ := @notes_progressCallback md5 q s'
      obtain ⟨ns', hns', hkind⟩ := hhandles.hushed
      have hcalled := @Ready.progressCallback md5 last q s' hready (fun d hd => (htells d hd).1)
      refine ⟨(hcalled.handles hhandles).toRemembers, ?_, ?_⟩
      · intro n hn hprogress
        rw [hns', hns, hnotes, List.append_assoc, List.drop_left] at hn
        rcases List.mem_append.mp hn with hn | hn
        · apply htold n hn
        · apply absurd hprogress (hkind n hn)
      · intro d hd
        obtain ⟨-, hpositive, hle⟩ := htells d hd
        obtain ⟨rfl, hloud, r, hr, -⟩ := hready.told_eq hd
        rw [Silent, not_or, not_not] at hloud
        exact ⟨hloud.1, hpositive, hle, hready.covered (Option.isSome_of_mem hr)⟩

end

/-- Let every transfer report no less than nothing and no more than its total.  If every event of a
run keeps progress, then in progress are all tasks whose progress is told, their sizes fit, and what
is delivered for a task id never goes back until the task is cancelled. -/
theorem along_deliversSoundly (md5 : Bytes → String) (db : TaskTable) (disk : Disk String Bytes)
    (transfers : Heap AWSS3TransferUtilityTask) (bucket : Disk String Bytes)
    (es : List HanderEvent)
    (hfit : ∀ e ∈ es, e.ReportsFit)
    (hkeeps : Run.Along (System.step (quiet md5)) KeepsProgress
      (System.initial db disk transfers bucket) es) :
  Run.Along (Run.recording (System.step (quiet md5)) (lastDelivered (quiet md5)))
    (DeliversSoundly (quiet md5)) (System.initial db disk transfers bucket, fun _ => none) es
  := by
  have hinitial : Remembers (fun _ => none) (System.initial db disk transfers bucket) := by
    apply Remembers.initial
    rintro k size ⟨⟩
  have hreports : Run.Along (System.step (quiet md5)) (fun _ e => e.ReportsFit)
      (System.initial db disk transfers bucket) es := Run.along_of_mem (fun e he _ => hfit e he) _
  apply Run.along_of_step (I := fun p => Remembers p.2 p.1)
    (P := fun p e => KeepsProgress p.1 e ∧ e.ReportsFit)
  · rintro ⟨s, last⟩ e h ⟨he, hfit⟩
    apply Remembers.step h he hfit
  · apply hinitial
  · apply (Run.along_recording_iff _).mpr (Run.along_and.mpr ⟨hkeeps, hreports⟩)

/-- The system when the process starts, with an object. -/
def oneObject : System :=
  System.initial (Table.empty _) (fun _ => none) Heap.empty
    (fun key => if key = "k" then some [1] else none)

/-- The application observes a task for a download, which it starts. -/
def downloadStarts : List HanderEvent :=
  [.service (.addHander 0), .service (.addObserver (some 0)),
    .service (.create { taskId := "a", fileKey := "k", filePath := "/a", type := .download }),
    .service (.startTask 0), .service (.opStart 0), .call 0, .service (.returns 0)]

/-- More than the half is downloaded when the process ends; then the resumption fails, and another
transfer is started. -/
def downloadStartsAgain : List HanderEvent :=
  downloadStarts ++
    [.goOn 0 none none, .goOn 0 none none, .progress 0 30 100, .progress 0 60 100,
      .service .restart] ++
    downloadStarts ++ [.call 1, .goOn 0 none none, .goOn 0 none none]

/-- The other transfer, with the same total, tells 60 again before it tells more. -/
theorem along_deliversSoundly_downloadStartsAgain :
  Run.Along (Run.recording (System.step (quiet fun _ => "m")) (lastDelivered (quiet fun _ => "m")))
    (DeliversSoundly (quiet fun _ => "m")) (oneObject, fun _ => none)
    (downloadStartsAgain ++ [.progress 1 10 100, .progress 1 80 100])
  := by
  apply along_deliversSoundly
  · decide
  · decide +kernel

/-- The object is smaller than before: the other transfer tells that 60 of 50 are finished. -/
theorem not_along_deliversSoundly_smallerObject :
  (∀ e ∈ downloadStartsAgain ++ [.progress 1 10 50], e.ReportsFit) ∧
  ¬ Run.Along
    (Run.recording (System.step (quiet fun _ => "m")) (lastDelivered (quiet fun _ => "m")))
    (DeliversSoundly (quiet fun _ => "m")) (oneObject, fun _ => none)
    (downloadStartsAgain ++ [.progress 1 10 50]) ∧
  (delivery (quiet fun _ => "m")
    (Run.final (System.step (quiet fun _ => "m")) oneObject downloadStartsAgain)
    (.progress 1 10 50)).map (fun d => (d.2.finishedSize, d.2.totalSize)) = some (60, 50)
  := by
  refine ⟨?_, ?_, ?_⟩
  · decide
  · decide +kernel
  · decide +kernel

end LCCFileService
