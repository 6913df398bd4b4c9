import LCCFileService.FileNet.Tables

/-!
# Cancelling a transfer

When the handler has been asked for a transfer that has neither finished nor been
cancelled, `lc_cancelTask:` of its cached unfinished task is to call the handler's cancel
method.  It asks the operation stored for the task id, which does so unless it is both
finished and cancelled, as a pause leaves it.
-/

namespace LCCFileService

open LCFileNetService LCFileNetOperation

variable {md5 : Bytes → String}

/-- From `s` to `s'` the handler method is called for the task id. -/
def Calls (p : HanderMethod → Bool) (k : String) (s s' : State) : Prop :=
  ∃ r < s'.calls.next, s.calls.next ≤ r ∧ p (s'.calls.cell r).method ∧
    s'.taskIdOf (s'.calls.cell r).op = some k

instance (p : HanderMethod → Bool) (k : String) (s s' : State) : Decidable (Calls p k s s') :=
  inferInstanceAs (Decidable (∃ r < _, _))

/-- The event ends the transfer of the task id: the handler calls the finish block, or its cancel
method is called. -/
def EndsTransfer (md5 : Bytes → String) (k : String) (s : State) (e : Event) : Prop :=
  (∃ r error, e = .finish r error ∧ r < s.calls.next ∧ (s.calls.cell r).method.transfers ∧
    s.taskIdOf (s.calls.cell r).op = some k) ∨
  Calls (· = .cancel) k s (step (quiet md5) s e)

/-- An event that is no finish and calls no cancel method ends no transfer. -/
theorem not_endsTransfer {k : String} {s : State} {e : Event}
    (hfinish : ∀ r error, e ≠ .finish r error)
    (hcancel : ¬ Calls (· = .cancel) k s (step (quiet md5) s e)) :
  ¬ EndsTransfer md5 k s e
  := by
  rintro (⟨r, error, he, -⟩ | h)
  · apply hfinish r error he
  · apply hcancel h

/-- In the run over `es` from `s` the handler has been asked for a transfer of the task id, which
has not ended since. -/
def InTransfer (md5 : Bytes → String) (k : String) (s : State) (es : List Event) : Prop :=
  ∃ pre e mid, es = pre ++ e :: mid ∧
    Calls HanderMethod.transfers k (Run.final (step (quiet md5)) s pre)
      (Run.final (step (quiet md5)) s (pre ++ [e])) ∧
    Run.Along (step (quiet md5)) (fun s e => ¬ EndsTransfer md5 k s e)
      (Run.final (step (quiet md5)) s (pre ++ [e])) mid

/-- Whenever a cached task that has not finished is in transfer, it has the property `P`. -/
def OfTransfers (md5 : Bytes → String) (P : String → State → Prop) (s : State)
    (es : List Event) : Prop :=
  ∀ pre k task, pre <+: es →
    (Run.final (step (quiet md5)) s pre).cache.lookup k = some task →
    ((Run.final (step (quiet md5)) s pre).tasks.cell task).status ≠ .finish →
    InTransfer md5 k s pre → P k (Run.final (step (quiet md5)) s pre)

/-- Cancelling the task calls the cancel method of the handler. -/
def CancelReaches (md5 : Bytes → String) (k : String) (s : State) : Prop :=
  Calls (· = .cancel) k s (step (quiet md5) s (.cancelTask k))

/-- The operation stored for the task id has a handler, and is not both finished and cancelled. -/
def StoredCallsHander (k : String) (s : State) : Prop :=
  ∃ o, s.taskOperationDic.lookup k = some o ∧ callsHander o s.toCore

/-- Without new calls no method is called. -/
theorem not_calls_of_next {p : HanderMethod → Bool} {k : String} {s s' : State}
    (h : s'.calls.next ≤ s.calls.next) :
  ¬ Calls p k s s'
  := by
  rintro ⟨r, hr, hle, -⟩
  apply absurd (Nat.lt_of_lt_of_le hr h) (Nat.not_lt_of_le hle)

/-- The end of a cancellation calls nobody. -/
theorem calls_cancelTail (k : String) (task : TaskRef) (s : State) :
  (cancelTail (quiet md5) k task s).calls = s.calls
  := by
  rw [toCore_cancelTail]
  rfl

/-- Cancelling a cached task that has not finished reaches the handler exactly if the operation
stored for its task id calls it. -/
theorem cancelReaches_iff {k : String} {s : State} (hwf : WellFormed s.toCore) {task : TaskRef}
    (hcached : s.cache.lookup k = some task) (hstatus : (s.tasks.cell task).status ≠ .finish) :
  CancelReaches md5 k s ↔ StoredCallsHander k s
  := by
  rw [CancelReaches, StoredCallsHander, step, lcCancelTask]
  simp only [hcached, hstatus, if_false]
  cases hstored : s.taskOperationDic.lookup k with
  | none =>
      apply iff_of_false
      · apply not_calls_of_next
        rw [calls_cancelTail]
      · simp
  | some o =>
      simp only [Option.some.injEq, exists_eq_left', cancel, stop]
      split
      · next hcalls =>
          apply iff_of_true _ hcalls
          refine ⟨s.calls.next, Nat.lt_succ_self _, Nat.le_refl _, ?_⟩
          have hcall : (s.mapCore (fun c => (c.call o .cancel).await
              (.lcCancelTask o k task))).calls.cell s.calls.next = { op := o, method := .cancel } :=
            Heap.cell_alloc_next _ s.calls
          rw [hcall]
          exact ⟨rfl, (hwf.taskIdOf hstored).2⟩
      · next hcalls =>
          apply iff_of_false _ hcalls
          apply not_calls_of_next
          split
          · rw [calls_cancelTail, toCore_stopTail]
            rfl
          · rw [calls_cancelTail]
            rfl

/-- In a run of the system every cancellation reaches the transfer exactly if every task in
transfer has a stored operation that calls the handler. -/
theorem ofTransfers_cancelReaches_iff (md5 : Bytes → String) (db : TaskTable)
    (disk : Disk String Bytes) (es : List Event) :
  OfTransfers md5 (CancelReaches md5) (State.initial db disk) es ↔
    OfTransfers md5 StoredCallsHander (State.initial db disk) es
  := by
  have hwf : ∀ es, WellFormed (Run.final (step (quiet md5)) (State.initial db disk) es).toCore :=
    fun es => (WellFormed.throughout db disk es).final
  constructor
  · intro h pre k task hpre hcached hstatus htransfer
    apply (cancelReaches_iff (hwf pre) hcached hstatus).mp
      (h pre k task hpre hcached hstatus htransfer)
  · intro h pre k task hpre hcached hstatus htransfer
    apply (cancelReaches_iff (hwf pre) hcached hstatus).mpr
      (h pre k task hpre hcached hstatus htransfer)

/-- A download that has called the handler. -/
def askedDownload : List Event :=
  [.create { taskId := "k", type := .download }, .addHander 0, .startTask 0]

/-- Cancelling the download after it has been paused does not reach the handler. -/
theorem not_ofTransfers_cancelReaches_paused :
  ¬ OfTransfers (fun _ => "") (CancelReaches (fun _ => "")) (State.initial ∅ (fun _ => none))
      (askedDownload ++ .opStart 0 :: [.returns 0, .pauseTask "k", .returns 0])
  := by
  intro h
  have htransfer : InTransfer (fun _ => "") "k" (State.initial ∅ (fun _ => none))
      (askedDownload ++ .opStart 0 :: [.returns 0, .pauseTask "k", .returns 0]) := by
    refine ⟨askedDownload, .opStart 0, _, rfl, by decide +kernel, ?_, ?_, ?_, trivial⟩
    · apply not_endsTransfer (fun _ _ => by simp) (by decide +kernel)
    · apply not_endsTransfer (fun _ _ => by simp) (by decide +kernel)
    · apply not_endsTransfer (fun _ _ => by simp) (by decide +kernel)
  have hreaches := h _ "k" 0 List.prefix_rfl (by decide +kernel) (by decide +kernel) htransfer
  revert hreaches
  rw [CancelReaches]
  decide +kernel

end LCCFileService
