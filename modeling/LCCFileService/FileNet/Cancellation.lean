import LCCFileService.FileNet.Tables
import LCCFileService.FileNet.Telling

/-!
# Cancelled tasks

`lc_cancelTask:` of a cached task that has not finished ends with the removal of the task.
What the handler still tells the operations created before is to change nothing.  The
progress and finish blocks do not ask whether their operation is cancelled, so it only does
if there is nothing to change: the row is already what is written, and nobody is told.
-/

namespace LCCFileService

open LCFileNetService LCFileNetOperation

variable {md5 : Bytes → String}

/-- The tables, the cached tasks, the callbacks and the notes are unchanged. -/
structure Unchanged (s s' : State) : Prop where
  rows : ∀ k, s'.db.get k = s.db.get k
  cache : s'.cache = s.cache
  operations : s'.taskOperationDic = s.taskOperationDic
  cachedTasks : ∀ k r, s.cache.lookup k = some r → s'.tasks.cell r = s.tasks.cell r
  callbacks : ∀ kind k, registered kind k s' = registered kind k s
  notes : s'.notes = s.notes

/-- The call of `lc_cancelTask:` for a cached task that has not finished returns with the
event, and the operations before `m` are those created before the call. -/
def CancelReturns (taskId : String) (m : OpRef) (s : State) : Event → Prop
  | .cancelTask taskId' =>
      taskId' = taskId ∧ m = s.ops.next ∧
        (∃ task ∈ s.cache.lookup taskId, (s.tasks.cell task).status ≠ .finish) ∧
        ∀ o ∈ s.taskOperationDic.lookup taskId, callsHander o s.toCore = false
  | .returns i =>
      ∃ o cacheTask, s.pending[i]? = some (.lcCancelTask o taskId cacheTask) ∧ m = o + 1
  | _ => False

/-- The handler calls a block of an operation of the task id created before `m`. -/
def LateEvent (taskId : String) (m : OpRef) (s : State) : Event → Prop
  | .progress r =>
      r < s.calls.next ∧ (s.calls.cell r).method.transfers ∧ (s.calls.cell r).op < m ∧
        s.taskIdOf (s.calls.cell r).op = some taskId
  | .finish r _ =>
      r < s.calls.next ∧ (s.calls.cell r).method.transfers ∧ (s.calls.cell r).op < m ∧
        s.taskIdOf (s.calls.cell r).op = some taskId ∧ (s.calls.cell r).answered = false
  | _ => False

/-- What the event writes for the task id is there already, and nobody is told. -/
def NothingLeft (taskId : String) (s : State) : Event → Prop
  | .progress r =>
      let task := s.tasks.cell (s.taskOf (s.calls.cell r).op)
      (∀ row ∈ s.db.get taskId,
        row.finishedSize = task.finishedSize ∧ row.totalSize = task.totalSize) ∧
      (Heard .progress taskId s → Silent task)
  | .finish r error =>
      let task := s.tasks.cell (s.taskOf (s.calls.cell r).op)
      (s.calls.cell r).method.Ends error →
        s.db.get taskId = some ⟨{ task with status := outcome error }, taskId⟩ ∧
        (s.cache.lookup taskId = some (s.taskOf (s.calls.cell r).op) →
          task.status = outcome error) ∧
        ∀ kind, ¬ Heard kind taskId s
  | _ => True

/-! ### Progress -/

/-- The progress block writes the sizes of the task to its row. -/
theorem progressBlock_quiet (o : OpRef) (s : State) :
  ∃ ops, (progressBlock (quiet md5) o s).toCore
    = { s.toCore.recordSizes (s.taskOf o) with ops := ops }
  := by
  rw [toCore_progressBlock]
  split
  · exact ⟨_, rfl⟩
  · exact ⟨_, rfl⟩

/-- The progress block tells the progress of the task unless it is silent. -/
theorem notes_progressBlock (o : OpRef) (s : State) :
  (progressBlock (quiet md5) o s).notes
      = s.notes ++ (if Silent (s.tasks.cell (s.taskOf o)) then []
          else notesOf .progress (s.taskOf o) none s) ∧
    (progressBlock (quiet md5) o s).callbackCache = s.callbackCache
  := by
  rw [progressBlock, State.toNotifier_mapCore, pNotifyProgressUpdate,
    lcNetOperationProgressUpdate]
  split
  · next hsilent =>
      rw [pNotifyProgress_silent, List.append_nil]
      · exact ⟨rfl, rfl⟩
      · apply hsilent
  · next hloud =>
      rw [pNotifyProgress_told, notesOf_congr rfl rfl rfl rfl]
      · exact ⟨rfl, rfl⟩
      · apply hloud

/-- The rows after the sizes of a task are written to its row. -/
theorem get_recordSizes {r : TaskRef} {c : Core} {k : String}
    (hid : (c.tasks.cell r).taskId = some k) (k' : String) :
  (c.recordSizes r).db.get k'
    = if k = k' then
        (c.db.get k').map (fun row => { row with
          finishedSize := (c.tasks.cell r).finishedSize
          totalSize := (c.tasks.cell r).totalSize })
      else c.db.get k'
  := by
  rw [Core.recordSizes, Core.setDb, LCFileTaskDB.lcUpdateTaskFinishedSize,
    LCFileTaskDB.get_updateTask]
  simp only [hid, Option.some.injEq]

theorem unchanged_progressBlock_iff {o : OpRef} {s : State} {k : String}
    (hid : s.taskIdOf o = some k) :
  Unchanged s (progressBlock (quiet md5) o s) ↔
    (∀ row ∈ s.db.get k, row.finishedSize = (s.tasks.cell (s.taskOf o)).finishedSize ∧
      row.totalSize = (s.tasks.cell (s.taskOf o)).totalSize) ∧
    (Heard .progress k s → Silent (s.tasks.cell (s.taskOf o)))
  := by
  obtain ⟨ops, hcore⟩ := @progressBlock_quiet md5 o s
  obtain ⟨hnotes, hcallbacks⟩ := @notes_progressBlock md5 o s
  have hrow := get_recordSizes hid
  constructor
  · intro h
    constructor
    · intro row hget
      have hk := h.rows k
      rw [hcore, hrow, if_pos rfl, hget] at hk
      have hrow := Option.some.inj hk
      exact ⟨congrArg (fun row => row.finishedSize) hrow.symm,
        congrArg (fun row => row.totalSize) hrow.symm⟩
    · intro hheard
      by_contra hsilent
      have hnil := h.notes
      rw [hnotes, if_neg hsilent, List.append_right_eq_self, notesOf_eq_nil_iff hid] at hnil
      apply hnil hheard
  · rintro ⟨hrows, hsilent⟩
    constructor
    · intro k'
      rw [hcore, hrow]
      split
      · next hk =>
          subst hk
          cases hget : s.db.get k with
          | none => rfl
          | some row =>
              obtain ⟨hfinished, htotal⟩ := hrows row hget
              rw [Option.map_some, ← hfinished, ← htotal]
      · rfl
    · rw [hcore]
      rfl
    · rw [hcore]
      rfl
    · intro k' r _
      rw [hcore]
      rfl
    · intro kind k'
      rw [registered, registered, hcallbacks]
    · rw [hnotes]
      split
      · rw [List.append_nil]
      · next hloud =>
          rw [List.append_right_eq_self, notesOf_eq_nil_iff hid]
          intro hheard
          apply hloud (hsilent hheard)

/-! ### Finish -/

/-- No callback of a dropped task id is registered. -/
theorem registered_erase {s s' : State} {k : String}
    (h : s'.callbackCache = fun kind => AList.erase k (s.callbackCache kind)) (kind : NoteKind)
    (k' : String) :
  registered kind k' s' = if k' = k then [] else registered kind k' s
  := by
  rw [registered, h, Dictionary.lookup_erase]
  split
  · rfl
  · rfl

theorem unchanged_ended_iff {o : OpRef} {error : Option NSError} {s : State} {k : String}
    (hwf : WellFormed s.toCore) (hid : s.taskIdOf o = some k) :
  Unchanged s (ended (quiet md5) o error s) ↔
    s.db.get k = some ⟨{ s.tasks.cell (s.taskOf o) with status := outcome error }, k⟩ ∧
    (s.cache.lookup k = some (s.taskOf o) →
      (s.tasks.cell (s.taskOf o)).status = outcome error) ∧
    ∀ kind, ¬ Heard kind k s
  := by
  have hcore := @toCore_ended_outcome md5 o error s
  obtain ⟨hnotes, hcallbacks⟩ := @notes_ended md5 o s k hid error
  have hregistered := registered_erase hcallbacks
  constructor
  · intro h
    have hrow := h.rows k
    rw [get_ended, if_pos hid] at hrow
    have hnil := h.notes
    rw [hnotes, List.append_assoc, List.append_right_eq_self, List.append_eq_nil_iff,
      notesOf_eq_nil_iff hid, notesOf_eq_nil_iff hid] at hnil
    refine ⟨hrow.symm, ?_, ?_⟩
    · intro hcached
      have htask := h.cachedTasks k _ hcached
      rw [cell_ended, if_pos rfl] at htask
      rw [← htask]
    · intro kind
      have hkind := h.callbacks kind k
      rw [hregistered, if_pos rfl] at hkind
      rintro (hobserver | hfinder | hcallback)
      · apply hnil.1 (Or.inl hobserver)
      · apply hnil.1 (Or.inr (Or.inl hfinder))
      · apply hcallback hkind.symm
  · rintro ⟨hrow, hstatus, hsilent⟩
    constructor
    · intro k'
      rw [get_ended]
      split
      · next hk =>
          obtain rfl := Option.some.inj (hid.symm.trans hk)
          apply hrow.symm
      · rfl
    · rw [hcore]
      rfl
    · rw [hcore]
      rfl
    · intro k' r hcached
      rw [cell_ended]
      split
      · next hr =>
          subst hr
          obtain rfl := Option.some.inj ((hwf.cached k' _ hcached).1.symm.trans hid)
          rw [← hstatus hcached]
      · rfl
    · intro kind k'
      rw [hregistered]
      split
      · next hk =>
          subst hk
          by_contra hne
          apply hsilent kind (Or.inr (Or.inr (Ne.symm hne)))
      · rfl
    · rw [hnotes, List.append_assoc, List.append_right_eq_self, List.append_eq_nil_iff,
        notesOf_eq_nil_iff hid, notesOf_eq_nil_iff hid]
      exact ⟨hsilent .status, hsilent .finish⟩

/-- A finish block that does not end its operation changes nothing. -/
theorem unchanged_finishBlock {method : HanderMethod} {error : Option NSError}
    (h : ¬ method.Ends error) (o : OpRef) (s : State) :
  Unchanged s (finishBlock (quiet md5) method o error s)
  := by
  obtain ⟨ops, calls, hcore, -⟩ := finishBlock_not_ends h (quiet md5) o s
  have hnotifier := toNotifier_finishBlock h (quiet md5) o s
  constructor
  · intro k
    rw [hcore]
  · rw [hcore]
  · rw [hcore]
  · intro k r _
    rw [hcore]
  · intro kind k
    rw [registered, registered, hnotifier]
  · rw [hnotifier]

/-! ### Late events -/

/-- Answering a call changes nothing. -/
theorem unchanged_answer_iff {s s' : State} (r : CallRef) :
  Unchanged (s.mapCore (·.answer r)) s' ↔ Unchanged s s'
  := by
  constructor
  · rintro ⟨hrows, hcache, hoperations, htasks, hcallbacks, hnotes⟩
    exact ⟨hrows, hcache, hoperations, htasks, hcallbacks, hnotes⟩
  · rintro ⟨hrows, hcache, hoperations, htasks, hcallbacks, hnotes⟩
    exact ⟨hrows, hcache, hoperations, htasks, hcallbacks, hnotes⟩

/-- A late event changes nothing exactly if there is nothing left to change. -/
theorem unchanged_iff_nothingLeft {s : State} (hwf : WellFormed s.toCore) {k : String} {m : OpRef}
    {e : Event} (he : LateEvent k m s e) :
  Unchanged s (step (quiet md5) s e) ↔ NothingLeft k s e
  := by
  cases e with
  | progress r =>
      obtain ⟨hr, htransfers, -, hid⟩ := he
      rw [step, if_pos ⟨hr, htransfers⟩]
      apply unchanged_progressBlock_iff hid
  | finish r error =>
      obtain ⟨hr, htransfers, -, hid, -⟩ := he
      have hwf' : WellFormed (s.mapCore (·.answer r)).toCore := hwf.congr rfl rfl rfl rfl rfl
      rw [step, if_pos hr, ← unchanged_answer_iff r]
      by_cases hends : (s.calls.cell r).method.Ends error
      · rw [finishBlock_ends hends]
        apply (unchanged_ended_iff hwf' hid).trans
        exact ⟨fun h _ => h, fun h => h hends⟩
      · constructor
        · intro _ hends'
          apply absurd hends' hends
        · intro _
          apply unchanged_finishBlock hends
  | _ => cases he

/-! ### Runs -/

/-- Every late event in the run over `es` from `s` has the property `P`: it comes after a
cancellation has returned, as long as the process lives. -/
def AfterCancel (md5 : Bytes → String) (P : String → State → Event → Prop) (s : State)
    (es : List Event) : Prop :=
  ∀ pre c mid e k m, pre ++ c :: mid ++ [e] <+: es →
    CancelReturns k m (Run.final (step (quiet md5)) s pre) c → .restart ∉ mid →
    LateEvent k m (Run.final (step (quiet md5)) s (pre ++ c :: mid)) e →
    P k (Run.final (step (quiet md5)) s (pre ++ c :: mid)) e

/-- In the run over `es` from `s` cancellation is final: no late event changes anything. -/
def CancellationFinal (md5 : Bytes → String) : State → List Event → Prop :=
  AfterCancel md5 (fun _ s e => Unchanged s (step (quiet md5) s e))

/-- In a run of the system cancellation is final exactly when there is nothing left to change
for any late event. -/
theorem cancellationFinal_iff (md5 : Bytes → String) (db : TaskTable) (disk : Disk String Bytes)
    (es : List Event) :
  CancellationFinal md5 (State.initial db disk) es
    ↔ AfterCancel md5 NothingLeft (State.initial db disk) es
  := by
  have hwf : ∀ es, WellFormed (Run.final (step (quiet md5)) (State.initial db disk) es).toCore :=
    fun es => (WellFormed.throughout db disk es).final
  constructor
  · intro h pre c mid e k m hes hcancel hrestart hlate
    apply (unchanged_iff_nothingLeft (hwf _) hlate).mp
    apply h pre c mid e k m hes hcancel hrestart hlate
  · intro h pre c mid e k m hes hcancel hrestart hlate
    apply (unchanged_iff_nothingLeft (hwf _) hlate).mpr
    apply h pre c mid e k m hes hcancel hrestart hlate

/-- A download that is being cancelled while the handler transfers. -/
def cancelledDownload : List Event :=
  [.create { taskId := "k", type := .download }, .addHander 0, .startTask 0, .opStart 0,
    .returns 0, .cancelTask "k"]

/-- The late finish of the cancelled download writes its row again. -/
theorem not_cancellationFinal_lateFinish :
  ¬ CancellationFinal (fun _ => "") (State.initial ∅ (fun _ => none))
      (cancelledDownload ++ .returns 0 :: [.finish 0 none])
  := by
  intro h
  have hlate : LateEvent "k" 1 (Run.final (step (quiet (fun _ => "")))
      (State.initial ∅ (fun _ => none)) (cancelledDownload ++ [.returns 0])) (.finish 0 none) := by
    refine ⟨?_, ?_, ?_, ?_, ?_⟩ <;> decide +kernel
  have hcancel : CancelReturns "k" 1 (Run.final (step (quiet (fun _ => "")))
      (State.initial ∅ (fun _ => none)) cancelledDownload) (.returns 0) := by
    refine ⟨0, 0, ?_, rfl⟩
    decide +kernel
  have hrow := (h cancelledDownload (.returns 0) [] (.finish 0 none) "k" 1 List.prefix_rfl hcancel
    (by simp) hlate).rows "k"
  have hnone : (Run.final (step (quiet (fun _ => ""))) (State.initial ∅ (fun _ => none))
      (cancelledDownload ++ [.returns 0])).db.get "k" = none := by
    decide +kernel
  have hsome : ((step (quiet (fun _ => "")) (Run.final (step (quiet (fun _ => "")))
      (State.initial ∅ (fun _ => none)) (cancelledDownload ++ [.returns 0]))
        (.finish 0 none)).db.get "k").isSome := by
    decide +kernel
  rw [hrow, hnone] at hsome
  cases hsome

end LCCFileService
